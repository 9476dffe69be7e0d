import StructuralRules.Pattern.CharSet

/-!
# Property names

A pattern asks for a property by name, or by name and value. Case, spaces,
hyphens, underscores and a leading `is` make no difference.
-/

namespace StructuralRules.Property

open Unicode

/-- The name without what makes no difference. -/
def normalize (name : String) : String :=
  let cs := name.toList
  let startsWithIs := (cs.take 2).map Char.toLower == ['i', 's']
  let body := if startsWithIs then cs.drop 2 else cs
  let kept :=
    (body.filter fun c => c.toNat < 128 && c != ' ' && c != '_' && c != '-').map Char.toLower
  if startsWithIs && kept == ['c'] then "isc" else String.ofList kept

/-- The categories under each of their names. -/
def categoryNames : List (List String × List Category) :=
  [(["lu", "uppercaseletter"], [.uppercaseLetter]),
   (["ll", "lowercaseletter"], [.lowercaseLetter]),
   (["lt", "titlecaseletter"], [.titlecaseLetter]),
   (["lc", "casedletter"], [.uppercaseLetter, .lowercaseLetter, .titlecaseLetter]),
   (["lm", "modifierletter"], [.modifierLetter]),
   (["lo", "otherletter"], [.otherLetter]),
   (["l", "letter"],
     [.uppercaseLetter, .lowercaseLetter, .titlecaseLetter, .modifierLetter, .otherLetter]),
   (["mn", "nonspacingmark"], [.nonspacingMark]),
   (["mc", "spacingmark"], [.spacingMark]),
   (["me", "enclosingmark"], [.enclosingMark]),
   (["m", "mark", "combiningmark"], [.nonspacingMark, .spacingMark, .enclosingMark]),
   (["nd", "decimalnumber", "digit"], [.decimalNumber]),
   (["nl", "letternumber"], [.letterNumber]),
   (["no", "othernumber"], [.otherNumber]),
   (["n", "number"], [.decimalNumber, .letterNumber, .otherNumber]),
   (["pc", "connectorpunctuation"], [.connectorPunctuation]),
   (["pd", "dashpunctuation"], [.dashPunctuation]),
   (["ps", "openpunctuation"], [.openPunctuation]),
   (["pe", "closepunctuation"], [.closePunctuation]),
   (["pi", "initialpunctuation"], [.initialPunctuation]),
   (["pf", "finalpunctuation"], [.finalPunctuation]),
   (["po", "otherpunctuation"], [.otherPunctuation]),
   (["p", "punctuation", "punct"],
     [.connectorPunctuation, .dashPunctuation, .openPunctuation, .closePunctuation,
      .initialPunctuation, .finalPunctuation, .otherPunctuation]),
   (["sm", "mathsymbol"], [.mathSymbol]),
   (["sc", "currencysymbol"], [.currencySymbol]),
   (["sk", "modifiersymbol"], [.modifierSymbol]),
   (["so", "othersymbol"], [.otherSymbol]),
   (["s", "symbol"], [.mathSymbol, .currencySymbol, .modifierSymbol, .otherSymbol]),
   (["zs", "spaceseparator"], [.spaceSeparator]),
   (["zl", "lineseparator"], [.lineSeparator]),
   (["zp", "paragraphseparator"], [.paragraphSeparator]),
   (["z", "separator"], [.spaceSeparator, .lineSeparator, .paragraphSeparator]),
   (["cc", "control", "cntrl"], [.control]),
   (["cf", "format"], [.format]),
   (["cs", "surrogate"], [.surrogate]),
   (["co", "privateuse"], [.privateUse]),
   (["cn", "unassigned"], [.unassigned]),
   (["c", "other"], [.control, .format, .surrogate, .privateUse, .unassigned]),
   (["assigned"], Category.all.filter (· != .unassigned))]

def category? (name : String) : Option Property :=
  if name == "any" then some .any
  else if name == "ascii" then some .ascii
  else (categoryNames.find? (·.1.contains name)).map fun (_, cs) => .categories cs

def script? (name : String) : Option Property :=
  (scripts.find? fun names => (names.map normalize).contains name).bind fun names =>
    names.head?.map .script

def flag? (name : String) : Option Property :=
  if ["alphabetic", "alpha"].contains name then some .alphabetic
  else if ["lowercase", "lower"].contains name then some .lowercase
  else if ["uppercase", "upper"].contains name then some .uppercase
  else if ["whitespace", "wspace", "space"].contains name then some .whiteSpace
  else none

/-- The property with the given name. A category or script needs no mention of its kind. -/
def named? (name : String) : Option Property :=
  let n := normalize name
  (flag? n).or ((category? n).or (script? n))

/-- The property `name` with the given value. -/
def valued? (name value : String) : Option Property :=
  let n := normalize name
  let v := normalize value
  if ["generalcategory", "gc"].contains n then category? v
  else if ["script", "sc", "scriptextensions", "scx"].contains n then script? v
  else none

end StructuralRules.Property
