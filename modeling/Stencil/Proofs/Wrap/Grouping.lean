import Stencil.Proofs.Wrap.Rows
import Mathlib.Data.List.Induction

/-! Filling lines by any sequence of requests groups the words faithfully. Each word ends up in one
row, in the order of the requests; no row goes across a line break; and each row is closed by the
event that makes its line complete. -/

namespace Stencil.Wrap

/-! ## Requests and events -/

/-- What a filler can be asked for. -/
inductive Request where
  | append (word : Text) (s : Separators)
  /-- The first word has separators of its own. -/
  | join (words : List Text) (s first : Separators)
  | newline
  deriving DecidableEq

/-- What a filler handles one after the other. -/
inductive Event where
  | word (w : Word)
  | newline
  deriving DecidableEq

/-- The words of a request, each with the separators that it is placed with. -/
def Request.words : Request → List Word
  | append word s => [⟨word, s⟩]
  | join [] _ _ => []
  | join (word :: words) s first => ⟨word, first⟩ :: words.map fun word => ⟨word, s⟩
  | newline => []

def Request.events : Request → List Event
  | newline => [.newline]
  | request => request.words.map .word

def Filler.serve (f : Filler) : Request → Filler
  | .append word s => f.place word s
  | .join words s first => f.placeAll words s first
  | .newline => f.newline

def Filler.handle (f : Filler) : Event → Filler
  | .word w => f.place w.text w.separators
  | .newline => f.newline

/-- The filler after a number of events. -/
def run (width : Nat) (events : List Event) : Filler := events.foldl Filler.handle (.empty width)

theorem run_append (width : Nat) (events : List Event) (event : Event) :
    run width (events ++ [event]) = (run width events).handle event := by
  simp [run]

theorem serve_eq (f : Filler) (request : Request) :
    f.serve request = request.events.foldl Filler.handle f := by
  cases request with
  | append word s => rfl
  | join words s first =>
      cases words with
      | nil => rfl
      | cons word words =>
          simp only [Filler.serve, Filler.placeAll, Request.events, Request.words, List.map_cons,
            List.foldl_cons, List.map_map, List.foldl_map]
          rfl
  | newline => rfl

/-- A request is served event by event. -/
theorem foldl_serve (width : Nat) (requests : List Request) :
    requests.foldl Filler.serve (.empty width) = run width (requests.flatMap Request.events) := by
  rw [run, List.foldl_flatMap]
  congr 1
  funext f request
  exact serve_eq f request

/-- The ending of the rows that an event closes. -/
def Event.ending : Event → Ending
  | word w => .wrapped w
  | newline => .broken

/-- The words of a row, and the line break that ended it, as they were asked for. -/
def Row.events (row : Row) : List Event :=
  row.words.map .word ++ if row.ending = .broken then [.newline] else []

def Event.word? : Event → Option Word
  | word w => some w
  | newline => none

theorem filterMap_word (words : List Word) : (words.map .word).filterMap Event.word? = words := by
  rw [List.filterMap_map]
  exact List.filterMap_some

theorem Row.filterMap_events (row : Row) : row.events.filterMap Event.word? = row.words := by
  rw [events, List.filterMap_append, filterMap_word]
  split <;> simp [Event.word?]

theorem Request.filterMap_events (request : Request) :
    request.events.filterMap Event.word? = request.words := by
  cases request with
  | append word s => rfl
  | join words s first => exact filterMap_word _
  | newline => rfl

/-! ## One event -/

variable {rows : List Row} {words : List Word} {word : Word} {f : Filler} {width : Nat}

/-- The line being filled continues another one only if it has words. -/
def Rested (rows : List Row) (words : List Word) : Prop :=
  words = [] → endingOf .broken rows = .broken

/-- The rows and the words of the line being filled after an event, which has closed the new rows
and kept all words in order. -/
structure Handled (rows : List Row) (words : List Word) (event : Event) (new : List Row)
    (left : List Word) (f : Filler) : Prop where
  shows : Shows (rows ++ new) left f
  rested : Rested (rows ++ new) left
  order : words.map .word ++ [event] = new.flatMap Row.events ++ left.map .word
  closed : ∀ row ∈ new, row.ending = event.ending ∧ (row.words = [] ↔ event = .newline ∧ words = [])

/-- The word opens the line, or is placed behind the others. -/
theorem Shows.handled_push (h : Shows rows words f) (hr : Rested rows words) (word : Word)
    {separator : Text}
    (hs : separator = if words = [] then word.separators.first else word.separators.between) :
    Handled rows words (.word word) [] (words ++ [word]) (f.push separator word.text) where
  shows := by
    have hsep : separator = separatorOf (endingOf .broken rows) words word := by
      rw [hs, separatorOf]
      split
      · rename_i hw
        rw [hr hw]
        rfl
      · rfl
    rw [List.append_nil, hsep]
    exact h.push word
  rested := by simp [Rested]
  order := by simp
  closed := by simp

/-- The word is moved to the next line. -/
theorem Shows.handled_wrap (h : Shows rows words f) (hw : words ≠ []) (word : Word) :
    Handled rows words (.word word) [⟨words, .wrapped word⟩] [word]
      (f.wrap word.text word.separators) where
  shows := by
    have hpush := (h.close (.wrapped word)).push word
    rwa [separatorOf, endingOf_append] at hpush
  rested := by simp [Rested]
  order := by simp [Row.events]
  closed := by simp [Event.ending, hw]

/-- A word moved to the next line to make room: what is handled from there on is handled. -/
theorem Handled.of_moved {front : List Word} {moved : Word} {new : List Row} {left : List Word}
    (hf : front ≠ [])
    (h : Handled (rows ++ [⟨front, .wrapped word⟩]) [moved] (.word word) new left f) :
    Handled rows (front ++ [moved]) (.word word) (⟨front, .wrapped word⟩ :: new) left f where
  shows := by simpa using h.shows
  rested := by simpa using h.rested
  order := by
    have he := h.order
    rw [List.map_cons, List.map_nil] at he
    simp [Row.events, ← he]
  closed := by
    intro row hrow
    rcases List.mem_cons.mp hrow with rfl | hrow
    · exact ⟨rfl, by simp [hf]⟩
    · simpa using h.closed row hrow

theorem Shows.handled_place (h : Shows rows words f) (hr : Rested rows words) (word : Word) :
    ∃ new left, Handled rows words (.word word) new left (f.place word.text word.separators) := by
  fun_induction Filler.place f word.text word.separators generalizing rows words with
  | case1 f hc =>
      have hw := h.current_eq_nil.mp hc
      exact ⟨_, _, h.handled_push hr word (by rw [if_pos hw])⟩
  | case2 f last earlier hc hfit =>
      have hw : words ≠ [] := fun hw => by simp [h.current_eq_nil.mpr hw] at hc
      exact ⟨_, _, h.handled_push hr word (by rw [if_neg hw])⟩
  | case3 f last earlier hc hfit hroom =>
      have hw : words ≠ [] := fun hw => by simp [h.current_eq_nil.mpr hw] at hc
      exact ⟨_, _, h.handled_wrap hw word⟩
  | case4 f last earlier hc hfit hroom ih =>
      obtain ⟨front, moved, rfl, hmoved, hfront⟩ := h.current_eq_cons hc
      have hne : front ≠ [] := by
        rintro rfl
        exact hroom (.inr (List.reverse_eq_nil_iff.mp hfront))
      have hwrap := ((h.back hc hfront).close (.wrapped word)).push moved
      rw [separatorOf, endingOf_append, hmoved] at hwrap
      obtain ⟨new, left, hnew⟩ := ih hwrap (by simp [Rested])
      exact ⟨_, _, hnew.of_moved hne⟩

theorem Shows.handled_newline (h : Shows rows words f) :
    Handled rows words .newline [⟨words, .broken⟩] [] f.newline where
  shows := h.close .broken
  rested := fun _ => endingOf_append ..
  order := by simp [Row.events]
  closed := by simp [Event.ending]

theorem Shows.handled (h : Shows rows words f) (hr : Rested rows words) (event : Event) :
    ∃ new left, Handled rows words event new left (f.handle event) := by
  cases event with
  | word w => exact h.handled_place hr w
  | newline => exact ⟨_, _, h.handled_newline⟩

/-! ## Any number of events -/

/-- The event after the first events completes the line with the given number. -/
def Completes (width : Nat) (before : List Event) (event : Event) (number : Nat) : Prop :=
  (run width before).lines.length ≤ number ∧
    number < (run width (before ++ [event])).lines.length

/-- The row is closed by the event that completes its line, and it has no words exactly when that
event is a line break on an empty line. -/
def Closed (width : Nat) (events : List Event) (number : Nat) (row : Row) : Prop :=
  ∃ before event after, events = before ++ event :: after ∧ Completes width before event number ∧
    row.ending = event.ending ∧
    (row.words = [] ↔ event = .newline ∧ (run width before).current = [])

theorem Closed.append {events : List Event} {number : Nat} {row : Row}
    (h : Closed width events number row) (more : List Event) :
    Closed width (events ++ more) number row := by
  obtain ⟨before, event, after, rfl, hc⟩ := h
  exact ⟨before, event, after ++ more, by simp, hc⟩

/-- The rows and the words of the line being filled after a number of events. -/
structure Grouping (width : Nat) (events : List Event) (rows : List Row) (words : List Word) :
    Prop where
  shows : Shows rows words (run width events)
  rested : Rested rows words
  order : events = rows.flatMap Row.events ++ words.map .word
  closed : ∀ number row, rows[number]? = some row → Closed width events number row

theorem grouping_nil (width : Nat) : Grouping width [] [] [] where
  shows := shows_empty width
  rested := fun _ => rfl
  order := rfl
  closed := by simp

theorem Grouping.step {events : List Event} (h : Grouping width events rows words)
    (event : Event) : ∃ rows' words', Grouping width (events ++ [event]) rows' words' := by
  obtain ⟨new, left, hh⟩ := h.shows.handled h.rested event
  rw [← run_append] at hh
  refine ⟨rows ++ new, left, hh.shows, hh.rested, ?_, ?_⟩
  · calc
      events ++ [event] = rows.flatMap Row.events ++ (words.map .word ++ [event]) := by
        rw [← List.append_assoc, ← h.order]
      _ = (rows ++ new).flatMap Row.events ++ left.map .word := by
        rw [hh.order, List.flatMap_append, List.append_assoc]
  · intro number row hrow
    rcases Nat.lt_or_ge number rows.length with hlt | hge
    · rw [List.getElem?_append_left hlt] at hrow
      exact (h.closed number row hrow).append [event]
    · have hlast := (List.getElem?_eq_some_iff.mp hrow).1
      rw [List.getElem?_append_right hge] at hrow
      obtain ⟨hending, hempty⟩ := hh.closed row (List.mem_of_getElem? hrow)
      refine ⟨events, event, [], rfl, ⟨?_, ?_⟩, hending, ?_⟩
      · rwa [h.shows.length]
      · rwa [hh.shows.length]
      · rw [hempty, h.shows.current_eq_nil]

theorem exists_grouping (width : Nat) (events : List Event) :
    ∃ rows words, Grouping width events rows words := by
  induction events using List.reverseRecOn with
  | nil => exact ⟨[], [], grouping_nil width⟩
  | append_singleton events event ih =>
      obtain ⟨rows, words, h⟩ := ih
      exact h.step event

/-! ## Where rows start -/

/-- The last thing done to a word is to place it. -/
theorem current_place_ne_nil (f : Filler) (word : Text) (s : Separators) :
    (f.place word s).current ≠ [] := by
  fun_induction Filler.place f word s with
  | case1 f hc => simp [Filler.push]
  | case2 f last earlier hc hfit => simp [Filler.push]
  | case3 f last earlier hc hfit hroom => simp [Filler.wrap, Filler.push]
  | case4 f last earlier hc hfit hroom ih => exact ih

theorem Closed.words_ne_nil {events : List Event} {number : Nat} {row : Row}
    (h : Closed width events number row) (hr : row.ending ≠ .broken) : row.words ≠ [] := by
  obtain ⟨before, event, after, -, -, hending, hempty⟩ := h
  intro hw
  obtain ⟨rfl, -⟩ := hempty.mp hw
  exact hr hending

/-- The first word behind the rows is asked for on an empty line exactly when it does not continue
them. -/
def Opened (width : Nat) (rows : List Row) : Prop :=
  (run width (rows.flatMap Row.events)).current = [] ↔ endingOf .broken rows = .broken

theorem opened_nil (width : Nat) : Opened width [] := iff_of_true rfl rfl

theorem opened_append (rows : List Row) (row : Row) (h : row.ending ≠ .broken → row.words ≠ []) :
    Opened width (rows ++ [row]) := by
  unfold Opened
  rw [endingOf_append, List.flatMap_append, List.flatMap_singleton, Row.events]
  cases hr : row.ending with
  | broken =>
      rw [if_pos rfl, ← List.append_assoc, run_append]
      exact iff_of_true rfl rfl
  | wrapped closer =>
      have hne : row.words ≠ [] := h (by simp [hr])
      obtain ⟨front, word, hw⟩ := (List.eq_nil_or_concat row.words).resolve_left hne
      rw [if_neg (by simp), List.append_nil, hw, List.concat_eq_append, List.map_append,
        List.map_singleton, ← List.append_assoc, run_append]
      exact iff_of_false (current_place_ne_nil _ _ _) (by simp)

theorem opened_of_closed {events : List Event} {front : List Row}
    (h : ∀ number row, rows[number]? = some row → Closed width events number row)
    (hf : front <+: rows) : Opened width front := by
  rcases List.eq_nil_or_concat front with rfl | ⟨earlier, row, rfl⟩
  · exact opened_nil width
  · obtain ⟨rest, rfl⟩ := hf
    rw [List.concat_eq_append]
    refine opened_append earlier row (h earlier.length row ?_).words_ne_nil
    simp

/-! ## The lines -/

/-- The events with the line break that the end makes if a line is being filled. -/
def whole (width : Nat) (events : List Event) : List Event :=
  if (run width events).current = [] then events else events ++ [.newline]

theorem current_whole (width : Nat) (events : List Event) :
    (run width (whole width events)).current = [] := by
  unfold whole
  split
  · assumption
  · rw [run_append]
    rfl

theorem finish_eq (width : Nat) (events : List Event) :
    (run width events).finish = (run width (whole width events)).lines := by
  unfold whole Filler.finish
  split
  · rename_i h
    rw [if_pos (List.isEmpty_iff.mp h)]
  · rename_i h
    rw [if_neg (fun hc => h (List.isEmpty_iff.mpr hc)), run_append]
    rfl

theorem filterMap_whole (width : Nat) (events : List Event) :
    (whole width events).filterMap Event.word? = events.filterMap Event.word? := by
  unfold whole
  split
  · rfl
  · simp [Event.word?]

/-- Whatever is asked for, the lines are those of rows that hold the words in order, with every line
break at the end of a row, and each row is closed by the event that completes its line. A row takes
up the one before it exactly when its first word was not asked for on an empty line. The recorded
width is exact all the way. -/
theorem finish_groups (width : Nat) (requests : List Request) :
    let events := requests.flatMap Request.events
    let filler := requests.foldl Filler.serve (.empty width)
    filler = run width events ∧
      (∀ before, (run width before).Measured) ∧
      ∃ rows, filler.finish = texts .broken rows ∧
        rows.flatMap Row.words = requests.flatMap Request.words ∧
        rows.flatMap Row.events = whole width events ∧
        (∀ number row, rows[number]? = some row →
          Closed width (whole width events) number row) ∧
        ∀ front, front <+: rows → Opened width front := by
  intro events filler
  have hfiller : filler = run width events := foldl_serve width requests
  refine ⟨hfiller, ?_, ?_⟩
  · intro before
    obtain ⟨rows, words, h⟩ := exists_grouping width before
    exact h.shows.measured
  · obtain ⟨rows, words, h⟩ := exists_grouping width (whole width events)
    obtain rfl : words = [] := h.shows.current_eq_nil.mp (current_whole width events)
    have horder : rows.flatMap Row.events = whole width events := by
      rw [h.order, List.map_nil, List.append_nil]
    refine ⟨rows, ?_, ?_, horder, h.closed, fun front hf => opened_of_closed h.closed hf⟩
    · rw [hfiller, finish_eq, h.shows.lines]
    · calc
        rows.flatMap Row.words = (rows.flatMap Row.events).filterMap Event.word? := by
          simp only [List.filterMap_flatMap, Row.filterMap_events]
        _ = events.filterMap Event.word? := by rw [horder, filterMap_whole]
        _ = requests.flatMap Request.words := by
          simp only [events, List.filterMap_flatMap, Request.filterMap_events]

/-- The closing separator does not fit behind the second word, which moves on with the third. A
second line break leaves a row without words. -/
theorem finish_groups_moved :
    let s : Separators := ⟨", ".toList, ",".toList, "= ".toList⟩
    let requests : List Request :=
      [.join [['a'], ['b'], ['c']] s s, .newline, .newline, .append ['d'] s]
    let filler := requests.foldl Filler.serve (.empty 6)
    filler.finish = ["= a,".toList, "b, c".toList, [], "= d".toList] ∧
      ∃ rows row, filler.finish = texts .broken rows ∧ rows[2]? = some row ∧
        Closed 6 (whole 6 (requests.flatMap Request.events)) 2 row ∧
        rows.take 2 <+: rows ∧ Opened 6 (rows.take 2) := by
  intro s requests filler
  have hfinish : filler.finish = ["= a,".toList, "b, c".toList, [], "= d".toList] := by
    simp only [filler, requests, s]
    cbv
  obtain ⟨-, -, rows, hrows, -, -, hclosed, hopened⟩ := finish_groups 6 requests
  have hlength : rows.length = 4 := by
    rw [← length_texts .broken rows, ← hrows, hfinish]
    rfl
  have hrow : rows[2]? = some rows[2] := List.getElem?_eq_getElem (by omega)
  have hprefix : rows.take 2 <+: rows := List.take_prefix 2 rows
  exact ⟨hfinish, rows, rows[2], hrows, hrow, hclosed 2 _ hrow, hprefix, hopened _ hprefix⟩

end Stencil.Wrap
