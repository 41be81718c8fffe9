import Stencil.Template.Scan
import Stencil.Text.Quoted
import Stencil.Text.Style

/-! The numbered listing of a template's tokens. -/

namespace Stencil

namespace Token

def named (name : String) (content : Text) : Text :=
  name.toList ++ '(' :: content.quoted ++ [')']

def conditional (name : String) (key : Text) (comment : Option Text) : Text :=
  let comment : Text := comment.elim "None" (named "Some")
  name.toList ++ " \x7b key: ".toList ++ key.quoted ++ ", comment: ".toList ++ comment ++
    " \x7d".toList

/-- The kind of a token and its parts. -/
def describe : Token → Text
  | text t => named "Text" t
  | newline => "Newline"
  | ifThen key comment => conditional "If" key comment
  | elseIf key comment => conditional "Elif" key comment
  | otherwise => "Else"
  | endIf => "Endif"
  | set assignment => named "Set" assignment
  | expand content => named "Expand" content
  | pushAlign => "PushAlign"
  | align => "Align"
  | popAlign => "PopAlign"

end Token

namespace Listing

/-- Indexes are aligned to the right over four columns. A styled index already has more
characters than that, seen or not. -/
def entry (styled : Bool) (index : Nat) (token : Token) : Text :=
  let index := Style.dimmed.apply styled (Text.ofNat index)
  Text.spaces (4 - index.length) ++ index ++ ' ' :: token.describe ++ ['\n']

/-- One line for each item from an index on, up to the first fault. -/
def entries (styled : Bool) (index : Nat) : List Item → Text × Option TemplateError
  | [] => ([], none)
  | .error e :: _ => ([], some e)
  | .ok token :: items =>
    let (rest, fault) := entries styled (index + 1) items
    (entry styled index token ++ rest, fault)

end Listing

/-- The listing of a template, and the fault that ends it if there is one. -/
def listing (styled : Bool) (template : Text) : Text × Option TemplateError :=
  Listing.entries styled 0 (tokenize template)

end Stencil
