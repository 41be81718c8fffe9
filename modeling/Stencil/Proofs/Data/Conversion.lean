import Mathlib.Data.List.Forall2
import Stencil.Data.Format
import Stencil.Proofs.Data.Objects

/-! TOML values as template values. An entry gets there by one of two ways: as the value of a
configuration it is taken as it is, and as the entry of a data file it becomes JSON first. -/

namespace Stencil

/-- NaN or an infinity. -/
def Binary64.isSpecial (x : Binary64) : Bool := x.isNaN || x.isInfinite

theorem Binary64.isFinite_eq_not_isSpecial (x : Binary64) : x.isFinite = !x.isSpecial := by
  rw [Bool.eq_iff_iff]
  simp only [isFinite, isSpecial, isNaN, isInfinite, decide_eq_true_eq, Bool.not_eq_true',
    Bool.or_eq_false_iff, decide_eq_false_iff_not, beq_eq_false_iff_ne]
  omega

namespace Toml

variable {α β : Type}

/-! ## Values inside values -/

/-- Induction over a value by the items of arrays and the entries of tables. -/
@[elab_as_elim]
theorem induction {motive : Toml → Prop} (string : ∀ t, motive (string t))
    (integer : ∀ i, motive (integer i)) (float : ∀ x, motive (float x))
    (boolean : ∀ b, motive (boolean b)) (datetime : ∀ t, motive (datetime t))
    (array : ∀ items, (∀ item ∈ items, motive item) → motive (array items))
    (table : ∀ entries, (∀ entry ∈ entries, motive entry.2) → motive (table entries)) :
    ∀ x, motive x
  | .string t => string t
  | .integer i => integer i
  | .float x => float x
  | .boolean b => boolean b
  | .datetime t => datetime t
  | .array items => array items fun item _ =>
      induction string integer float boolean datetime array table item
  | .table entries => table entries fun (_, value) _ =>
      induction string integer float boolean datetime array table value
  termination_by x => sizeOf x
  decreasing_by
    · decreasing_tactic
    · have := List.sizeOf_lt_of_mem ‹_ ∈ entries›
      simp only [Prod.mk.sizeOf_spec, Toml.table.sizeOf_spec] at this ⊢
      omega

/-- The values inside a value at any depth, itself among them. -/
inductive Inside : Toml → Toml → Prop
  | self (x : Toml) : Inside x x
  | item {x item : Toml} {items : List Toml} (hi : item ∈ items) (hx : Inside x item) :
      Inside x (array items)
  | entry {x : Toml} {entry : Text × Toml} {entries : List (Text × Toml)} (he : entry ∈ entries)
      (hx : Inside x entry.2) : Inside x (table entries)

mutual

/-- The floats inside a value in the order they are written. -/
def floats : Toml → List Binary64
  | float x => [x]
  | array items => itemsFloats items
  | table entries => entriesFloats entries
  | _ => []

def itemsFloats : List Toml → List Binary64
  | [] => []
  | item :: items => floats item ++ itemsFloats items

def entriesFloats : List (Text × Toml) → List Binary64
  | [] => []
  | (_, value) :: entries => floats value ++ entriesFloats entries

end

theorem mem_itemsFloats {y : Binary64} {items : List Toml} :
    y ∈ itemsFloats items ↔ ∃ item ∈ items, y ∈ floats item := by
  induction items with
  | nil => simp [itemsFloats]
  | cons item items ih => simp [itemsFloats, ih]

theorem mem_entriesFloats {y : Binary64} {entries : List (Text × Toml)} :
    y ∈ entriesFloats entries ↔ ∃ entry ∈ entries, y ∈ floats entry.2 := by
  induction entries with
  | nil => simp [entriesFloats]
  | cons entry entries ih =>
    obtain ⟨key, value⟩ := entry
    simp only [entriesFloats, List.mem_append, ih, List.exists_mem_cons_iff]

theorem mem_floats {y : Binary64} {x : Toml} : y ∈ x.floats ↔ Inside (float y) x := by
  constructor
  · intro h
    induction x using Toml.induction with
    | float z =>
      obtain rfl : y = z := by simpa [floats] using h
      exact .self _
    | array items ih =>
      obtain ⟨item, hi, hy⟩ := mem_itemsFloats.mp h
      exact .item hi (ih item hi hy)
    | table entries ih =>
      obtain ⟨entry, he, hy⟩ := mem_entriesFloats.mp h
      exact .entry he (ih entry he hy)
    | string | integer | boolean | datetime => simp [floats] at h
  · intro h
    induction h with
    | self => simp [floats]
    | item hi _ ih => exact mem_itemsFloats.mpr ⟨_, hi, ih⟩
    | entry he _ ih => exact mem_entriesFloats.mpr ⟨_, he, ih⟩

/-! ## JSON with the same content -/

/-- The JSON value has the content of the TOML value: an array the items in order, and an object
each key of the table once. Of two entries with one key the last is meant. -/
inductive Becomes : Toml → Json → Prop
  | string (t : Text) : Becomes (string t) (.string t)
  | integer (i : Int) : Becomes (integer i) (.number (.whole i))
  | float (x : Binary64) : Becomes (float x) (.number (.float x))
  | boolean (b : Bool) : Becomes (boolean b) (.bool b)
  | datetime (t : Text) : Becomes (datetime t) (.string t)
  | array {items : List Toml} {jsons : List Json} (h : List.Forall₂ Becomes items jsons) :
      Becomes (array items) (.array jsons)
  | table {entries : List (Text × Toml)} {members : List (Text × Json)}
      (hs : Json.Sorted members)
      (h : ∀ key, Option.Rel Becomes (entries.reverse.lookup key) (members.lookup key)) :
      Becomes (table entries) (.object members)

/-- The result of converting something with the given floats inside: the first special one as the
error, or something right if all are finite. -/
def Converted (floats : List Binary64) (right : α → Prop) : Except Binary64 α → Prop
  | .error x => floats.find? Binary64.isSpecial = some x
  | .ok a => floats.find? Binary64.isSpecial = none ∧ right a

theorem Converted.bind {f g : List Binary64} {P : α → Prop} {Q : β → Prop}
    {x : Except Binary64 α} {k : α → Except Binary64 β} (hx : Converted f P x)
    (hk : ∀ a, P a → Converted g Q (k a)) : Converted (f ++ g) Q (x >>= k) := by
  cases x with
  | error y =>
    have hf : f.find? Binary64.isSpecial = some y := hx
    change (f ++ g).find? Binary64.isSpecial = some y
    rw [List.find?_append, hf, Option.some_or]
  | ok a =>
    obtain ⟨hf, ha⟩ := hx
    have hr := hk a ha
    change Converted (f ++ g) Q (k a)
    cases hb : k a with
    | error y | ok b => simpa [Converted, hb, List.find?_append, hf] using hr

theorem Converted.map {f : List Binary64} {P : α → Prop} {Q : β → Prop} {x : Except Binary64 α}
    {k : α → β} (hx : Converted f P x) (hk : ∀ a, P a → Q (k a)) : Converted f Q (x.map k) := by
  cases x with
  | error y => exact hx
  | ok a => exact ⟨hx.1, hk a hx.2⟩

theorem itemsToJson_converted {R : Toml → Json → Prop} {items : List Toml}
    (h : ∀ item ∈ items, Converted item.floats (R item) item.toJson) :
    Converted (itemsFloats items) (List.Forall₂ R items) (itemsToJson items) := by
  induction items with
  | nil => exact ⟨rfl, .nil⟩
  | cons item items ih =>
    obtain ⟨hi, hr⟩ := List.forall_mem_cons.mp h
    exact hi.bind fun json hj => (ih hr).map fun jsons hjs => .cons hj hjs

theorem entriesToJson_converted {R : Toml → Json → Prop} {entries : List (Text × Toml)}
    (h : ∀ entry ∈ entries, Converted entry.2.floats (R entry.2) entry.2.toJson) :
    Converted (entriesFloats entries) (List.Forall₂ (fun e m => e.1 = m.1 ∧ R e.2 m.2) entries)
      (entriesToJson entries) := by
  induction entries with
  | nil => exact ⟨rfl, .nil⟩
  | cons entry entries ih =>
    obtain ⟨hi, hr⟩ := List.forall_mem_cons.mp h
    exact hi.bind fun json hj => (ih hr).map fun jsons hjs => .cons ⟨rfl, hj⟩ hjs

theorem lookup_rel {R : α → β → Prop} {entries : List (Text × α)} {members : List (Text × β)}
    (h : List.Forall₂ (fun e m => e.1 = m.1 ∧ R e.2 m.2) entries members) (key : Text) :
    Option.Rel R (entries.lookup key) (members.lookup key) := by
  induction h with
  | nil => exact .none
  | @cons e m entries members h _ ih =>
    obtain ⟨k, a⟩ := e
    obtain ⟨l, b⟩ := m
    obtain ⟨rfl, hab⟩ := h
    simp only [List.lookup_cons]
    split
    · exact .some hab
    · exact ih

theorem lookup_map_snd (f : α → β) (entries : List (Text × α)) (key : Text) :
    (entries.map fun (k, a) => (k, f a)).lookup key = (entries.lookup key).map f := by
  induction entries with
  | nil => rfl
  | cons entry entries ih =>
    obtain ⟨k, a⟩ := entry
    simp only [List.map_cons, List.lookup_cons, ih]
    split <;> rfl

theorem rel_map {γ : Type} {R : α → β → Prop} {S : α → γ → Prop} {f : β → γ} {a? : Option α}
    {b? : Option β} (h : Option.Rel R a? b?) (hf : ∀ a b, R a b → S a (f b)) :
    Option.Rel S a? (b?.map f) := by
  cases h with
  | none => exact .none
  | some h => exact .some (hf _ _ h)

/-- The members of the object that converted entries make. -/
theorem ofEntries_rel {R : Toml → Json → Prop} {entries : List (Text × Toml)}
    {converted : List (Text × Json)}
    (h : List.Forall₂ (fun e m => e.1 = m.1 ∧ R e.2 m.2) entries converted) :
    ∃ members, Json.ofEntries converted = .object members ∧ Json.Sorted members ∧
      ∀ key, Option.Rel R (entries.reverse.lookup key) (members.lookup key) := by
  obtain ⟨members, he, hs, hl⟩ := Json.ofEntries_eq converted
  exact ⟨members, he, hs, fun key => hl key ▸ lookup_rel (List.rel_reverse h) key⟩

theorem toJson_float (y : Binary64) :
    (float y).toJson = if y.isSpecial then .error y else .ok (.number (.float y)) := by
  rw [toJson, Binary64.isFinite_eq_not_isSpecial]
  cases y.isSpecial <;> rfl

theorem toJson_converted (x : Toml) : Converted x.floats (Becomes x) x.toJson := by
  induction x using Toml.induction with
  | string t => exact ⟨rfl, .string t⟩
  | integer i => exact ⟨rfl, .integer i⟩
  | float y =>
    rw [toJson_float]
    split
    case isTrue hy => exact List.find?_cons_of_pos hy
    case isFalse hy => exact ⟨List.find?_cons_of_neg hy, .float y⟩
  | boolean b => exact ⟨rfl, .boolean b⟩
  | datetime t => exact ⟨rfl, .datetime t⟩
  | array items ih => exact (itemsToJson_converted ih).map fun jsons h => .array h
  | table entries ih =>
    refine (entriesToJson_converted ih).map fun converted h => ?_
    obtain ⟨members, he, hs, hr⟩ := ofEntries_rel h
    exact he ▸ .table hs hr

theorem toJson_eq_error_iff {x : Toml} {y : Binary64} :
    x.toJson = .error y ↔ x.floats.find? Binary64.isSpecial = some y := by
  have h := toJson_converted x
  cases hx : x.toJson with
  | error z =>
    rw [hx] at h
    simp [show x.floats.find? _ = some z from h]
  | ok json =>
    rw [hx] at h
    simp [h.1]

theorem becomes_of_toJson {x : Toml} {json : Json} (h : x.toJson = .ok json) : Becomes x json := by
  have hx := toJson_converted x
  rw [h] at hx
  exact hx.2

theorem toJson_fails_iff {x : Toml} :
    (∃ y, x.toJson = .error y) ↔ ∃ y, Inside (float y) x ∧ y.isSpecial := by
  simp only [toJson_eq_error_iff, ← Option.isSome_iff_exists, List.find?_isSome, mem_floats]

/-! ## The two ways -/

/-- What a configuration takes as which template value. -/
inductive Takes : Toml → Value → Prop
  | boolean (b : Bool) : Takes (boolean b) (.bool b)
  | integer (i : Int) (h : inInt64 i) : Takes (integer i) (.int (Int64.ofInt i))
  | unsigned (i : Int) (h : isUnsigned i) (hn : ¬inInt64 i) :
      Takes (integer i) (.float (.ofInt i))
  | float (x : Binary64) : Takes (float x) (.float x)
  | string (t : Text) : Takes (string t) (.text t)
  | array (texts : List Text) : Takes (array (texts.map string)) (.lines texts)

theorem mapM_asText?_map_string (texts : List Text) :
    (texts.map string).mapM asText? = some texts := by
  induction texts with
  | nil => rfl
  | cons t texts ih => simp [List.mapM_cons, asText?, ih]

theorem eq_map_string_of_mapM_asText? {items : List Toml} {texts : List Text}
    (h : items.mapM asText? = some texts) : items = texts.map string := by
  induction items generalizing texts with
  | nil => simp_all
  | cons item items ih =>
    rw [List.mapM_cons] at h
    cases item with
    | string t =>
      obtain ⟨rest, hr, rfl⟩ : ∃ rest, items.mapM asText? = some rest ∧ t :: rest = texts := by
        simpa [asText?, Option.bind_eq_some_iff] using h
      rw [ih hr, List.map_cons]
    | _ => nomatch h

theorem asValue?_eq_some_iff {x : Toml} {v : Value} : x.asValue? = some v ↔ Takes x v := by
  constructor
  · intro h
    cases x with
    | boolean | float | string =>
      injection h with h
      exact h ▸ by constructor
    | integer i =>
      rw [asValue?] at h
      split at h
      case isTrue hi =>
        injection h with h
        exact h ▸ .integer i hi
      case isFalse hn =>
        obtain ⟨hi, h⟩ : isUnsigned i ∧ Value.float (.ofInt i) = v := by simpa using h
        exact h ▸ .unsigned i hi hn
    | array items =>
      obtain ⟨texts, hi, rfl⟩ := Option.map_eq_some_iff.mp h
      exact eq_map_string_of_mapM_asText? hi ▸ .array texts
    | datetime | table => nomatch h
  · rintro (_ | ⟨i, h⟩ | ⟨i, h, hn⟩ | _ | _ | ⟨texts⟩)
    case integer => exact if_pos h
    case unsigned => exact (if_neg hn).trans (if_pos h)
    case array => rw [asValue?, mapM_asText?_map_string, Option.map_some]
    all_goals rfl

/-- The template value of an entry of a data file. An integer that needs more than 64 bits with its
sign is converted like the others; it is the document that is refused for it. -/
def fileValue (path : Path) (x : Toml) : Except Failure Value :=
  (x.toJson.mapError (.unconvertibleFloat path)).map Json.toValue

variable {x : Toml} {path : Path}

theorem fileValue_of_toJson {json : Json} {v : Value} (h : x.toJson = .ok json)
    (hv : json.toValue = v) : x.fileValue path = .ok v := by
  rw [fileValue, h, ← hv]
  rfl

theorem fileValue_of_toJson_error {y : Binary64} (h : x.toJson = .error y) :
    x.fileValue path = .error (.unconvertibleFloat path y) := by
  rw [fileValue, h]
  rfl

theorem itemsToJson_map_string (texts : List Text) :
    itemsToJson (texts.map string) = .ok (texts.map .string) := by
  induction texts with
  | nil => rfl
  | cons t texts ih => simp [itemsToJson, toJson, ih, bind, Except.bind]

theorem fileValue_of_takes {v : Value} (h : Takes x v) (hf : ∀ y, x = float y → ¬y.isSpecial) :
    x.fileValue path = .ok v := by
  cases h with
  | boolean | string => exact fileValue_of_toJson rfl rfl
  | integer i hi => exact fileValue_of_toJson rfl (if_pos hi)
  | unsigned i _ hn => exact fileValue_of_toJson rfl (if_neg hn)
  | float y => exact fileValue_of_toJson ((toJson_float y).trans (if_neg (hf y rfl))) rfl
  | array texts =>
    have hj : (array (texts.map string)).toJson = .ok (.array (texts.map .string)) := by
      rw [toJson, itemsToJson_map_string]
      rfl
    have hl : texts.map (Json.toLine ∘ Json.string) = texts := List.map_id'' (fun _ => rfl) texts
    exact fileValue_of_toJson hj (by rw [Json.toValue, List.map_map, hl])

theorem Converted.eq_ok {f : List Binary64} {P : α → Prop} {x : Except Binary64 α}
    (h : Converted f P x) : Converted f (fun a => x = .ok a) x := by
  cases x with
  | error y => exact h
  | ok a => exact ⟨h.1, rfl⟩

/-- A configuration takes an entry as the value that it has in a data file, if it takes it. -/
theorem eq_of_fileValue {v w : Value} (h : x.fileValue path = .ok v) (hw : x.asValue? = some w) :
    w = v := by
  have hfinite : ∀ y, x = float y → ¬y.isSpecial := by
    rintro y rfl hy
    rw [fileValue_of_toJson_error ((toJson_float y).trans (if_pos hy))] at h
    nomatch h
  rw [fileValue_of_takes (asValue?_eq_some_iff.mp hw) hfinite] at h
  exact Except.ok.inj h

/-- The document in a text, its dates and times in their places. -/
def document? (content : Text) : Option Toml :=
  (Toml.read content).bind fun entries => (table entries).unmark

/-- What is read from the data file at a path if it holds the given document. An integer beyond 64
bits at any depth refuses the document, and so does a special float; without them each key has the
template value of its entry, and that is the one a configuration takes the entry as. -/
structure ReadsAs (path : Path) (content : Text) (document : Toml) : Prop where
  refused : document.fits = false → readData path content = .error (.badData path .malformed)
  special : document.fits → ∀ y, document.floats.find? Binary64.isSpecial = some y →
    readData path content = .error (.unconvertibleFloat path y)
  values : document.fits → document.floats.find? Binary64.isSpecial = none →
    ∀ entries, document = table entries → ∃ values, readData path content = .ok values ∧ ∀ key,
      Option.Rel (fun x v => x.fileValue path = .ok v ∧ ∀ w, x.asValue? = some w → w = v)
        (entries.reverse.lookup key) (values.lookup key)

section

variable {content : Text} {document : Toml}

theorem readData_of_decode {json : Except Failure Json}
    (hp : DataFormat.ofExtension? (path.extension?.getD []) = some .toml)
    (hj : DataFormat.toml.decode path content = json) :
    readData path content = json.bind fun
      | .object entries => .ok (entries.map fun (key, json) => (key, json.toValue))
      | _ => .error (.badData path .notTable) := by
  rw [readData]
  simp only [hp, hj]
  rfl

theorem decode_of_document (hd : document? content = some document) :
    DataFormat.toml.decode path content =
      if document.fits then document.toJson.mapError (.unconvertibleFloat path)
      else .error (.badData path .malformed) := by
  rw [document?] at hd
  simp only [DataFormat.decode, hd]

theorem readData_toml (hp : DataFormat.ofExtension? (path.extension?.getD []) = some .toml)
    (hd : document? content = some document) : ReadsAs path content document where
  refused hf := by
    rw [readData_of_decode hp (decode_of_document hd), hf]
    rfl
  special hf y hy := by
    rw [readData_of_decode hp (decode_of_document hd), if_pos hf, toJson_eq_error_iff.mpr hy]
    rfl
  values hf hs entries ht := by
    subst ht
    have hr := @entriesToJson_converted (fun x json => x.toJson = .ok json) entries fun entry _ =>
      (toJson_converted entry.2).eq_ok
    rw [readData_of_decode hp (decode_of_document hd), if_pos hf, toJson]
    cases he : entriesToJson entries with
    | error y =>
      rw [he] at hr
      have hy : (entriesFloats entries).find? Binary64.isSpecial = some y := hr
      exact absurd (hy.symm.trans hs) (Option.some_ne_none y)
    | ok converted =>
      rw [he] at hr
      obtain ⟨members, hm, -, hl⟩ :=
        @ofEntries_rel (fun x json => x.toJson = .ok json) entries converted hr.2
      simp only [Except.map, hm, Except.mapError]
      refine ⟨_, rfl, fun key => ?_⟩
      rw [lookup_map_snd]
      refine rel_map (hl key) fun x json hx => ?_
      have hv : x.fileValue path = .ok json.toValue := fileValue_of_toJson hx rfl
      exact ⟨hv, fun w hw => eq_of_fileValue hv hw⟩

end

/-- The two ways agree on what a configuration takes, but for the floats that JSON has no number
for, and conversion to JSON loses nothing. A data file is converted entry by entry. -/
theorem conversions_agree (path : Path) :
    (∀ (x : Toml) v, x.asValue? = some v ↔ Takes x v) ∧
      (∀ (x : Toml) v, x.asValue? = some v → (∀ y, x = .float y → ¬y.isSpecial) →
        x.fileValue path = .ok v) ∧
      (∀ y : Binary64, y.isSpecial → (float y).asValue? = some (.float y) ∧
        (float y).fileValue path = .error (.unconvertibleFloat path y)) ∧
      (∀ x : Toml, (∃ y, x.toJson = .error y) ↔ ∃ y, Inside (float y) x ∧ y.isSpecial) ∧
      (∀ (x : Toml) y, x.toJson = .error y ↔ x.floats.find? Binary64.isSpecial = some y) ∧
      (∀ (x : Toml) json, x.toJson = .ok json → Becomes x json) ∧
      ∀ content document, DataFormat.ofExtension? (path.extension?.getD []) = some .toml →
        document? content = some document → ReadsAs path content document :=
  ⟨fun _ _ => asValue?_eq_some_iff,
    fun _ _ hv hf => fileValue_of_takes (asValue?_eq_some_iff.mp hv) hf,
    fun y hy => ⟨rfl, fileValue_of_toJson_error ((toJson_float y).trans (if_pos hy))⟩,
    fun _ => toJson_fails_iff,
    fun _ _ => toJson_eq_error_iff,
    fun _ _ => becomes_of_toJson,
    fun _ _ => readData_toml⟩

/-- An array of strings, an infinity alone and below an array in a table, and a table; and three
data files, the second with an infinity and the third with an integer beyond 64 bits. -/
theorem conversions_agree_cases :
    let path : Path := "d.toml".toList
    let infinity : Binary64 := .infinity true
    let deep := table [(['k'], array [string ['s'], float infinity])]
    let flat := table [(['a'], array [boolean true, datetime ['t']]), (['b'], integer 3)]
    (array [string ['s'], string []]).fileValue path = .ok (.lines [['s'], []]) ∧
      (float infinity).fileValue path = .error (.unconvertibleFloat path infinity) ∧
      (∃ y, deep.toJson = .error y) ∧
      (∃ json, flat.toJson = .ok json ∧ Becomes flat json) ∧
      (∃ values, readData path "b=3".toList = .ok values ∧ values.lookup ['b'] = some (.int 3)) ∧
      readData path "k=['s',-inf]".toList = .error (.unconvertibleFloat path infinity) ∧
      readData path "b=9223372036854775808".toList = .error (.badData path .malformed) := by
  intro path infinity deep flat
  obtain ⟨-, hagree, hspecial, hfails, -, hkept, hreads⟩ := conversions_agree path
  have hinfinity : infinity.isSpecial := by decide
  have hinside : Inside (float infinity) deep :=
    .entry (.head _) (.item (.tail _ (.head _)) (.self _))
  have hformat : DataFormat.ofExtension? (path.extension?.getD []) = some .toml := by decide
  have hplain := hreads "b=3".toList (table [(['b'], integer 3)]) hformat rfl
  obtain ⟨values, hvalues, hentries⟩ := hplain.values rfl rfl _ rfl
  have hb : values.lookup ['b'] = some (.int 3) := by
    have hrel : Option.Rel _ (some (integer 3)) _ := hentries ['b']
    generalize values.lookup ['b'] = v? at hrel
    cases hrel with
    | some h => rw [h.2 (.int 3) rfl]
  have hdeep : (document? "k=['s',-inf]".toList).any fun document => document.fits &&
      document.floats.find? Binary64.isSpecial == some (.infinity true) := by decide +kernel
  have hlarge : (document? "b=9223372036854775808".toList).any fun document =>
      !document.fits := by decide +kernel
  obtain ⟨_, hdeep, hkinds⟩ := (Option.any_eq_true _ _).mp hdeep
  obtain ⟨hfits, hfound⟩ := Bool.and_eq_true_iff.mp hkinds
  obtain ⟨_, hlarge, hbeyond⟩ := (Option.any_eq_true _ _).mp hlarge
  exact ⟨hagree _ _ rfl nofun, (hspecial infinity hinfinity).2,
    (hfails deep).mpr ⟨infinity, hinside, hinfinity⟩, ⟨_, rfl, hkept flat _ rfl⟩,
    ⟨values, hvalues, hb⟩, (hreads _ _ hformat hdeep).special hfits infinity (beq_iff_eq.mp hfound),
    (hreads _ _ hformat hlarge).refused (Bool.not_eq_true' _ |>.mp hbeyond)⟩

end Toml

end Stencil
