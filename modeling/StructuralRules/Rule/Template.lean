import StructuralRules.Text.Basic

/-!
# Message templates

A template may name the rule or construct, the matched text, the file and the
line. The four names are replaced one after the other, in that order.
-/

set_option autoImplicit false

namespace StructuralRules

namespace Text

/-- Replaces the occurrences of `old`, left to right; `skip` characters of the last one are
still to be passed over. -/
def replaceFrom (old new : Text) (skip : Nat) : Text → Text
  | [] => []
  | c :: t =>
      match skip with
      | n + 1 => replaceFrom old new n t
      | 0 =>
          if old.isPrefixOf (c :: t) then new ++ replaceFrom old new (old.length - 1) t
          else c :: replaceFrom old new 0 t

/-- Replaces every occurrence of `old`, which is not empty. -/
def replace (old new t : Text) : Text :=
  replaceFrom old new 0 t

end Text

/-- What the names in a template stand for. -/
structure TemplateValues where
  name : Text
  matched : Text
  file : Text
  line : Text
  deriving DecidableEq, Repr

/-- The text of a message with names in braces. -/
structure Template where
  text : Text
  deriving DecidableEq, Repr

namespace Template

def nameKey : Text := "\x7bname\x7d".toList
def matchKey : Text := "\x7bmatch\x7d".toList
def fileKey : Text := "\x7bfile\x7d".toList
def lineKey : Text := "\x7bline\x7d".toList

def render (t : Template) (v : TemplateValues) : Text :=
  Text.replace lineKey v.line <| Text.replace fileKey v.file <|
    Text.replace matchKey v.matched <| Text.replace nameKey v.name t.text

end Template
end StructuralRules
