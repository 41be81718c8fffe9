import Stencil.Template.Scan
import Stencil.Proofs.Machine.Step

/-! Templates read as nested blocks. What cannot be nested, a block without its end or a mark
without its block, stays behind the closed blocks in the order of the template. -/

namespace Stencil.Blocks

/-- A token that is no mark. -/
abbrev Plain := { token : Token // token.mark? = none }

mutual

/-- A stretch of a template in which every block is closed. -/
inductive Body where
  | nil
  | plain (token : Plain) (rest : Body)
  | block (key : Text) (comment : Option Text) (first : Body) (arms : Arms) (rest : Body)

/-- What follows the first branch of a block, up to its end. -/
inductive Arms where
  | endIf
  | elseIf (key : Text) (comment : Option Text) (body : Body) (more : Arms)
  | otherwise (body : Body) (more : Arms)

end

/-- What follows the first branch of a block that is never closed, up to where the reading stops.
Further blocks may be left open inside. -/
inductive Open where
  | ends
  | fault (e : TemplateError) (unread : List Item)
  | ifThen (key : Text) (comment : Option Text) (body : Body) (more : Open)
  | elseIf (key : Text) (comment : Option Text) (body : Body) (more : Open)
  | otherwise (body : Body) (more : Open)

/-- What follows a stretch of closed blocks: marks without their block, then blocks without their
end. -/
inductive Tail where
  | ends
  | fault (e : TemplateError) (unread : List Item)
  | ifThen (key : Text) (comment : Option Text) (body : Body) (more : Open)
  | elseIf (key : Text) (comment : Option Text) (body : Body) (more : Tail)
  | otherwise (body : Body) (more : Tail)
  | endIf (body : Body) (more : Tail)

/-- A template as nested blocks. -/
structure Nested where
  body : Body
  tail : Tail

/-! ## Reading -/

/-- The branches up to the first end, with what follows the block, or no end at all. -/
def Tail.split : Tail → Arms × Nested ⊕ Open
  | .ends => .inr .ends
  | .fault e unread => .inr (.fault e unread)
  | .ifThen key comment body more => .inr (.ifThen key comment body more)
  | .endIf body more => .inl (.endIf, ⟨body, more⟩)
  | .elseIf key comment body more =>
    match more.split with
    | .inl (arms, after) => .inl (.elseIf key comment body arms, after)
    | .inr rest => .inr (.elseIf key comment body rest)
  | .otherwise body more =>
    match more.split with
    | .inl (arms, after) => .inl (.otherwise body arms, after)
    | .inr rest => .inr (.otherwise body rest)

/-- Puts a token in front. An opening mark takes the nearest end that is still free. -/
def Nested.cons (token : Token) (n : Nested) : Nested :=
  match h : token.mark? with
  | none => ⟨.plain ⟨token, h⟩ n.body, n.tail⟩
  | some (.ifThen key comment) =>
    match n.tail.split with
    | .inl (arms, after) => ⟨.block key comment n.body arms after.body, after.tail⟩
    | .inr rest => ⟨.nil, .ifThen key comment n.body rest⟩
  | some (.elseIf key comment) => ⟨.nil, .elseIf key comment n.body n.tail⟩
  | some .otherwise => ⟨.nil, .otherwise n.body n.tail⟩
  | some .endIf => ⟨.nil, .endIf n.body n.tail⟩

/-- Reads items as nested blocks, up to the first fault. -/
def read : List Item → Nested
  | [] => ⟨.nil, .ends⟩
  | .error e :: unread => ⟨.nil, .fault e unread⟩
  | .ok token :: items => (read items).cons token

/-! ## Writing back -/

mutual

def Body.items : Body → List Item
  | .nil => []
  | .plain token rest => .ok token :: rest.items
  | .block key comment first arms rest =>
    .ok (.ifThen key comment) :: (first.items ++ (arms.items ++ rest.items))

def Arms.items : Arms → List Item
  | .endIf => [.ok .endIf]
  | .elseIf key comment body more => .ok (.elseIf key comment) :: (body.items ++ more.items)
  | .otherwise body more => .ok .otherwise :: (body.items ++ more.items)

end

def Open.items : Open → List Item
  | .ends => []
  | .fault e unread => .error e :: unread
  | .ifThen key comment body more => .ok (.ifThen key comment) :: (body.items ++ more.items)
  | .elseIf key comment body more => .ok (.elseIf key comment) :: (body.items ++ more.items)
  | .otherwise body more => .ok .otherwise :: (body.items ++ more.items)

def Tail.items : Tail → List Item
  | .ends => []
  | .fault e unread => .error e :: unread
  | .ifThen key comment body more => .ok (.ifThen key comment) :: (body.items ++ more.items)
  | .elseIf key comment body more => .ok (.elseIf key comment) :: (body.items ++ more.items)
  | .otherwise body more => .ok .otherwise :: (body.items ++ more.items)
  | .endIf body more => .ok .endIf :: (body.items ++ more.items)

def Nested.items (n : Nested) : List Item := n.body.items ++ n.tail.items

/-- The items on either side of a split tail. -/
def splitItems : Arms × Nested ⊕ Open → List Item
  | .inl (arms, after) => arms.items ++ after.items
  | .inr rest => rest.items

theorem splitItems_split (tail : Tail) : splitItems tail.split = tail.items := by
  induction tail with
  | ends => rfl
  | fault e unread => rfl
  | ifThen key comment body more => rfl
  | endIf body more => rfl
  | elseIf key comment body more ih =>
      rw [Tail.split, Tail.items, ← ih]
      cases more.split with
      | inl found => simp [splitItems, Arms.items]
      | inr rest => rfl
  | otherwise body more ih =>
      rw [Tail.split, Tail.items, ← ih]
      cases more.split with
      | inl found => simp [splitItems, Arms.items]
      | inr rest => rfl

theorem items_cons (token : Token) (n : Nested) :
    (n.cons token).items = .ok token :: n.items := by
  unfold Nested.cons
  split
  · rfl
  · rename_i key comment h
    have hs := splitItems_split n.tail
    rw [Token.mark?_eq_some_iff.mp h]
    cases hsplit : n.tail.split with
    | inl found =>
        rw [hsplit] at hs
        simp [Nested.items, Body.items, ← hs, splitItems, Mark.token]
    | inr rest =>
        rw [hsplit] at hs
        simp [Nested.items, Body.items, Tail.items, ← hs, splitItems, Mark.token]
  · rename_i key comment h
    rw [Token.mark?_eq_some_iff.mp h]
    rfl
  · rename_i h
    rw [Token.mark?_eq_some_iff.mp h]
    rfl
  · rename_i h
    rw [Token.mark?_eq_some_iff.mp h]
    rfl

/-- Reading loses, adds and moves nothing. -/
theorem items_read (items : List Item) : (read items).items = items := by
  induction items with
  | nil => rfl
  | cons item items ih =>
      cases item with
      | error e => rfl
      | ok token => rw [read, items_cons, ih]

/-- The end belongs to the inner block, and the outer one stays open. -/
example (k : Text) : read [.ok (.ifThen k none), .ok (.ifThen k none), .ok .endIf] =
    ⟨.nil, .ifThen k none (.block k none .nil .endIf .nil) .ends⟩ := rfl

end Stencil.Blocks
