import Stencil.Text.Upper

/-! Identifiers made from free-form labels. -/

namespace Stencil.Naming

/-- The characters, beside blanks, at which a label falls into words. -/
def separators : Text := "'!\"#$%&/()=?+*@.:,;<>^`-_[]\x7b\x7d"

def isSeparator (c : Char) : Bool := isBlank c || separators.contains c

def words (label : Text) : List Text := (label.splitOnP isSeparator).filter (!·.isEmpty)

/-- The words of the label with underscores between them. -/
def identifier (label : Text) : Text := Text.joined ['_'] (words label)

/-- The identifier of the label in capitals. -/
def constant (label : Text) : Text := identifier label.toUpper

end Stencil.Naming
