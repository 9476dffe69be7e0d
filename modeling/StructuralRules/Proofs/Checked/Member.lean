import StructuralRules.Proofs.Checked.Body
import StructuralRules.Proofs.Source.Declarations

/-!
# Members, checked

Fields and enumerators with every cut checked. The one cut that can fail is the
one between the type and the name of a field.
-/

set_option autoImplicit false

namespace StructuralRules

open Text

/-- The fault that a cut inside a character is. -/
def SplitCharacter.fault (s : SplitCharacter) : Fault :=
  .cut s.text s.offset

namespace Checked

/-- What stands before the first bracket, and what stands from there on. -/
def splitArray (decl : Text) : Except Fault (Text × Option Text) :=
  match offsetOf? (· == '[') decl with
  | some i => do return (trimEnd (← sliceTo decl i), some (trim (← sliceFrom decl i)))
  | none => .ok (decl, none)

def typeAndName (head : Text) : Except Fault (Text × Text) := do
  let start := ((lastOffset? (!isIdentChar ·) head).map (· + 1)).getD 0
  let name ← sliceFrom head start
  let type ← sliceTo head start
  return (type, name)

def parseField (declaration : Text) (line : Nat) : Except Fault (Option Field) :=
  match declaration.getLast? with
  | some ';' =>
      let decl := trimEnd declaration.dropLast
      if decl.any Field.refused.contains then .ok none
      else do
        let (head, array) ← splitArray decl
        let (type, name) ← typeAndName head
        let type := unwords (words type)
        if isIdentifier name && type.any Char.isAlpha then
          return some ⟨type, name, array, declaration, line⟩
        else return none
  | _ => .ok none

def fieldsOfRow (row : Text) (line : Nat) : Except Fault (List Field) := do
  let fields ← (Field.declarations row).mapM fun d => parseField (trim d) line
  return fields.filterMap id

def fieldsOfRows (depth line : Nat) : List (Text × LineClass) → Except Fault (List Field)
  | [] => .ok []
  | (row, cls) :: rest => do
      let opens := row.count '{'
      let closes := row.count '}'
      let nested := 0 < depth || 0 < opens || 0 < closes
      let here ← if nested || !cls.isExecutable then .ok [] else fieldsOfRow row line
      let there ← fieldsOfRows (depth + opens - closes) (line + 1) rest
      return here ++ there

def fields (inner : Text) (first : Nat) (ms : Markers) : Except Fault (List Field) := do
  fieldsOfRows 0 first ((rows (← masked inner)).zip (ms.classifyLines (rows inner)))

def enumerators (inner : Text) (first : Nat) (ms : Markers) : Except Fault (List Enumerator) := do
  return Enumerator.ofRows first []
    ((rows (← masked inner)).zip (ms.classifyLines (rows inner)))

def findStruct (file : SourceFile) (name : String) (ms : Markers) :
    Except Fault (Option StructDef) := do
  match ← findAggregate .struct file.text name with
  | none => return none
  | some b =>
      let fields ← fields (← inner b) (← openLine b) ms
      return some ⟨name, b.startLine, b.endLine, b.text, fields⟩

def findEnum (file : SourceFile) (name : String) (ms : Markers) :
    Except Fault (Option EnumDef) := do
  match ← findAggregate .enum file.text name with
  | none => return none
  | some b =>
      let values ← enumerators (← inner b) (← openLine b) ms
      return some ⟨name, b.startLine, b.endLine, b.text, values⟩

theorem typeAndName_eq (head : Text) :
    typeAndName head = (Field.typeAndName head).mapError SplitCharacter.fault := by
  rcases last_split (!isIdentChar ·) head with hall | ⟨u, c, v, rfl, hc, hv⟩
  · rw [typeAndName, lastOffset?_eq_none hall,
      Field.typeAndName_of_ident fun x hx => by simpa using hall x hx]
    simp only [Option.map_none, Option.getD_none]
    rw [sliceFrom_eq_ok (List.nil_append head).symm byteLength_nil.symm, ok_bind,
      sliceTo_eq_ok (List.nil_append head).symm byteLength_nil.symm, ok_bind]
    rfl
  · have hc' : isIdentChar c = false := by simpa using hc
    have hv' : ∀ x ∈ v, isIdentChar x = true := fun x hx => by simpa using hv x hx
    rw [typeAndName, lastOffset?_append hc hv, Field.typeAndName_append hc' hv']
    simp only [Option.map_some, Option.getD_some]
    have hpos := c.utf8Size_pos
    split_ifs with hone
    · have hcut : u ++ c :: v = (u ++ [c]) ++ v := by simp
      have hoff : byteLength u + 1 = byteLength (u ++ [c]) := by simp [hone]
      rw [sliceFrom_eq_ok hcut hoff, ok_bind, sliceTo_eq_ok hcut hoff, ok_bind]
      rfl
    · rw [sliceFrom, drop?_inside (by omega)]
      rfl

theorem splitArray_eq (decl : Text) :
    splitArray decl =
      .ok (if (decl.dropWhile (· != '[')).isEmpty then decl.takeWhile (· != '[')
          else trimEnd (decl.takeWhile (· != '[')),
        if (decl.dropWhile (· != '[')).isEmpty then none
          else some (trim (decl.dropWhile (· != '[')))) := by
  by_cases h : '[' ∈ decl
  · obtain ⟨u, v, rfl, hu⟩ := List.eq_append_cons_of_mem h
    have hu' : ∀ x ∈ u, (x != '[') = true := by
      intro x hx
      rw [bne_iff_ne]
      rintro rfl
      exact hu hx
    have hoffset : offsetOf? (· == '[') (u ++ '[' :: v) = some (byteLength u) :=
      offsetOf?_eq_some.mpr ⟨u, '[', v, rfl, rfl, rfl, fun x hx => by simpa using hu' x hx⟩
    have hhead : (u ++ '[' :: v).takeWhile (· != '[') = u := by
      rw [List.takeWhile_append_of_pos hu']
      simp
    have harray : (u ++ '[' :: v).dropWhile (· != '[') = '[' :: v := by
      rw [List.dropWhile_append_of_pos hu']
      simp
    rw [splitArray, hoffset, hhead, harray]
    dsimp only
    rw [sliceTo_eq_ok rfl rfl, ok_bind, sliceFrom_eq_ok rfl rfl, ok_bind]
    rfl
  · have hfree : ∀ x ∈ decl, (x != '[') = true := by
      intro x hx
      rw [bne_iff_ne]
      rintro rfl
      exact h hx
    rw [splitArray, offsetOf?_eq_none fun x hx => by simpa using hfree x hx,
      List.dropWhile_eq_nil_iff.mpr hfree, List.takeWhile_eq_self_iff.mpr hfree]
    rfl

theorem parseField_eq (declaration : Text) (line : Nat) :
    parseField declaration line =
      (Field.parse declaration line).mapError SplitCharacter.fault := by
  rw [parseField]
  split
  · next hlast =>
    rw [Field.parse]
    split
    · dsimp only
      by_cases href : (trimEnd declaration.dropLast).any Field.refused.contains = true
      · rw [if_pos href, if_pos href]
        rfl
      · rw [if_neg href, if_neg href, splitArray_eq, ok_bind, typeAndName_eq, mapError_bind]
        congr 1
        funext tn
        split_ifs <;> rfl
    · next hother => exact absurd hlast hother
  · next hother =>
    rw [Field.parse]
    split
    · next hlast => exact absurd hlast hother
    · rfl

theorem fieldsOfRow_eq (row : Text) (line : Nat) :
    fieldsOfRow row line = (Field.ofRow row line).mapError SplitCharacter.fault := by
  rw [fieldsOfRow, Field.ofRow, mapM_mapError fun d _ => parseField_eq (trim d) line, mapError_bind]
  rfl

theorem fieldsOfRows_eq (rows : List (Text × LineClass)) (depth line : Nat) :
    fieldsOfRows depth line rows =
      (Field.ofRows depth line rows).mapError SplitCharacter.fault := by
  induction rows generalizing depth line with
  | nil => rfl
  | cons head rest ih =>
    rw [fieldsOfRows, Field.ofRows, ih, fieldsOfRow_eq]
    split_ifs
    · rw [ok_bind, ok_bind, mapError_bind]
      rfl
    · rw [mapError_bind]
      congr 1
      funext here
      rw [mapError_bind]
      rfl

theorem fields_eq (inner : Text) (first : Nat) (ms : Markers) :
    fields inner first ms = (Field.all inner first ms).mapError SplitCharacter.fault := by
  rw [fields, masked_eq, ok_bind, fieldsOfRows_eq]
  rfl

theorem findStruct_eq (file : SourceFile) (name : String) (ms : Markers) :
    findStruct file name ms = (StructDef.find? file name ms).mapError SplitCharacter.fault := by
  rw [findStruct, findAggregate_eq, ok_bind, StructDef.find?]
  cases hb : Aggregate.struct.body? file.text name with
  | none => rfl
  | some b =>
    obtain ⟨before, head, inside, behind, hsits⟩ := Aggregate.body?_sits hb
    dsimp only
    rw [inner_eq hsits, ok_bind, openLine_eq hsits, ok_bind, fields_eq, mapError_bind]
    rfl

theorem findEnum_eq (file : SourceFile) (name : String) (ms : Markers) :
    findEnum file name ms = .ok (EnumDef.find? file name ms) := by
  rw [findEnum, findAggregate_eq, ok_bind, EnumDef.find?]
  cases hb : Aggregate.enum.body? file.text name with
  | none => rfl
  | some b =>
    obtain ⟨before, head, inside, behind, hsits⟩ := Aggregate.body?_sits hb
    dsimp only
    rw [inner_eq hsits, ok_bind, openLine_eq hsits, ok_bind, enumerators, masked_eq, ok_bind]
    rfl

end Checked
end StructuralRules
