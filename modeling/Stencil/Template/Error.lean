import Stencil.Text

/-! What can go wrong while a template is expanded. -/

namespace Stencil

inductive Malformation where
  /-- A directive is still open at the end of its line. -/
  | unclosed
  /-- A condition has no key. -/
  | missingKey (keyword : Text)
  deriving DecidableEq

inductive AlignmentMarker where
  | align
  | pop
  deriving DecidableEq

inductive TemplateError where
  | malformed (reason : Malformation)
  | unmatchedEndif
  | misplacedElif
  | misplacedElse
  | danglingIf (count : Nat)
  | invalidSet (assignment : Text)
  | unclosedParameterList (content : Text)
  | unknownKey (key : Text)
  | unbalancedAlignment (marker : AlignmentMarker)
  | resolver (message : Text)
  | atLine (line : Nat) (source : TemplateError)
  deriving DecidableEq

namespace Malformation

def message : Malformation → Text
  | unclosed => "[[[ not followed by ]]] on the same line."
  | missingKey keyword => keyword ++ " requires a key.".toList

end Malformation

namespace AlignmentMarker

def display : AlignmentMarker → Text
  | align => "[[[|]]]"
  | pop => "[[[<]]]"

end AlignmentMarker

namespace TemplateError

/-- The error below all line numbers. -/
def root : TemplateError → TemplateError
  | atLine _ source => source.root
  | e => e

/-- The outermost line number. -/
def line? : TemplateError → Option Nat
  | atLine line _ => some line
  | _ => none

def message : TemplateError → Text
  | malformed reason => reason.message
  | unmatchedEndif => "ENDIF must be preceded by IF"
  | misplacedElif => "ELIF must be preceded by IF"
  | misplacedElse => "ELSE must be preceded by IF"
  | danglingIf count => "Number of IFs without closing ENDIFs: ".toList ++ Text.ofNat count
  | invalidSet assignment =>
    "\"SET ".toList ++ assignment ++
      "\": invalid format for SET. Correct format is \"SET identifier=value\".".toList
  | unclosedParameterList content => "No closing parenthesis: ".toList ++ content
  | unknownKey key => "unknown key: ".toList ++ Text.ticked key
  | unbalancedAlignment marker =>
    Text.ticked marker.display ++ " used without a matching `[[[>]]]`".toList
  | resolver message => message
  | atLine line source =>
    "[line ".toList ++ Text.ofNat line ++ "]: ".toList ++ source.message

def code : TemplateError → Text
  | malformed _ => "cgt::malformed_directive"
  | unmatchedEndif => "cgt::unmatched_endif"
  | misplacedElif => "cgt::misplaced_elif"
  | misplacedElse => "cgt::misplaced_else"
  | danglingIf _ => "cgt::dangling_if"
  | invalidSet _ => "cgt::invalid_set"
  | unclosedParameterList _ => "cgt::unclosed_parameter_list"
  | unknownKey _ => "cgt::unknown_key"
  | unbalancedAlignment _ => "cgt::unbalanced_alignment"
  | resolver _ => "cgt::resolver"
  | atLine _ _ => "cgt::template"

def help? : TemplateError → Option Text
  | malformed _ => some "directives must open with `[[[` and close with `]]]` on the same line"
  | danglingIf _ => some "close every `[[[IF key]]]` with a matching `[[[ENDIF]]]`"
  | unclosedParameterList _ => some "parameter lists are written as `[[[name(a, b)]]]`"
  | _ => none

end TemplateError

end Stencil
