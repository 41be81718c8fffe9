import Stencil.Template.Error

/-! The tokens of a template, how a directive is told from its content, and how a token is
written. -/

namespace Stencil

inductive Token where
  /-- Literal text inside a line. -/
  | text (t : Text)
  | newline
  | ifThen (key : Text) (comment : Option Text)
  | elseIf (key : Text) (comment : Option Text)
  | otherwise
  | endIf
  /-- The assignment is still unread: it may lack its equals sign. -/
  | set (assignment : Text)
  /-- The content is still unread: a key, or a key with parameters. -/
  | expand (content : Text)
  | pushAlign
  | align
  | popAlign
  deriving DecidableEq, Inhabited

namespace Token

def opening : Text := "[[["

def closing : Text := "]]]"

/-- The key of a condition and its comment, which runs from the first blank to the end. -/
def condition (keyword : Text) (rest : Text) : Except TemplateError (Text × Option Text) :=
  let rest := rest.trimStart
  let key := rest.takeWhile (!isBlank ·)
  let comment := Text.trim (rest.dropWhile (!isBlank ·))
  if key.isEmpty then .error (.malformed (.missingKey keyword))
  else .ok (key, if comment.isEmpty then none else some comment)

/-- The directive with the given content. -/
def classify (content : Text) : Except TemplateError Token :=
  if let some rest := "IF ".toList.isPrefixOf? content then
    (condition "IF" rest).map fun (key, comment) => ifThen key comment
  else if let some rest := "ELIF ".toList.isPrefixOf? content then
    (condition "ELIF" rest).map fun (key, comment) => elseIf key comment
  else if content = ['|'] then .ok align
  else if content = ['>'] then .ok pushAlign
  else if content = ['<'] then .ok popAlign
  else if "ELSE".toList.isPrefixOf content then .ok otherwise
  else if "ENDIF".toList.isPrefixOf content then .ok endIf
  else if let some rest := "SET ".toList.isPrefixOf? content then .ok (set (Text.trimStart rest))
  else .ok (expand content)

def directive (content : Text) : Text := opening ++ content ++ closing

/-- The fields of a condition, with one space between them. -/
def fields (keyword key : Text) (comment : Option Text) : Text :=
  match comment with
  | none => keyword ++ ' ' :: key
  | some comment => keyword ++ ' ' :: key ++ ' ' :: comment

def display : Token → Text
  | text t => t
  | newline => ['\n']
  | ifThen key comment => directive (fields "IF" key comment)
  | elseIf key comment => directive (fields "ELIF" key comment)
  | otherwise => directive "ELSE"
  | endIf => directive "ENDIF"
  | set assignment => directive ("SET ".toList ++ assignment)
  | expand content => directive content
  | pushAlign => directive ['>']
  | align => directive ['|']
  | popAlign => directive ['<']

/-- Text without any visible character. -/
def isBlankText : Token → Bool
  | text t => Text.allBlank t
  | _ => false

end Token

end Stencil
