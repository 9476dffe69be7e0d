import StructuralRules.Proofs.Data.Tables
import StructuralRules.Settings.Codec

/-!
# Settings come back as they were written

Each part of the settings is read back from the table it is written as. A default
is taken only for a key that is not there, and only optional fields are left out.
The fields of a rule's kind share no key with the fields that all rules have, so
neither can be read in the place of the other.
-/

set_option autoImplicit false

namespace StructuralRules

open Data

/-! ## Reading what was written -/

namespace Data

variable {α : Type} {key : String} {es : List (String × Data)} {f : Reader α} {g : α → Data}

theorem required_string {s : String} (h : find? key es = some (.string s)) :
    required es key readString = some s := by
  rw [required, h]
  rfl

/-- The standard value does not replace one that is there. -/
theorem orElse_of_find? {a standard : α} {d : Data} (hread : f d = some a)
    (h : find? key es = some d) : orElse es key standard f = some a := by
  rw [orElse, h]
  exact hread

/-- A field that is left out when there is no value. -/
theorem maybe_of_find? {v : Option α} (h : find? key es = v.map g) (hnull : ∀ a, g a ≠ .null)
    (hread : ∀ a, v = some a → f (g a) = some a) : maybe es key f = some v := by
  rw [maybe, h]
  cases v with
  | none => rfl
  | some a =>
    rw [Option.map_some]
    split
    · next heq => cases heq
    · next heq => exact absurd (Option.some.inj heq) (hnull a)
    · next d _ heq =>
      rw [← Option.some.inj heq, hread a rfl]
      rfl

theorem maybe_string {v : Option String} (h : find? key es = v.map .string) :
    maybe es key readString = some v :=
  maybe_of_find? h (fun _ => nofun) fun _ _ => rfl

theorem readList_map {l : List α} (h : ∀ a ∈ l, f (g a) = some a) :
    readList f (.list (l.map g)) = some l := by
  show (l.map g).mapM f = some l
  induction l with
  | nil => rfl
  | cons a l ih =>
    have hrest := ih fun a' ha' => h a' (List.mem_cons_of_mem a ha')
    rw [List.map_cons, List.mapM_cons, h a List.mem_cons_self, hrest]
    rfl

@[simp] theorem readStrings_strings (l : List String) : readStrings (strings l) = some l :=
  readList_map fun _ _ => rfl

theorem readNat_nat {n : Nat} (h : n < natBound) : readNat (.nat n) = some n :=
  if_pos h

/-! ## Numbers that fit into words -/

@[simp] theorem fitsWords_string (s : String) : fitsWords (.string s) = true := by
  rw [fitsWords]
  all_goals nofun

theorem fitsWords_nat {n : Nat} (h : n < natBound) : fitsWords (.nat n) = true := by
  have hbound : (n : Int) < 0x10000000000000000 := by
    unfold natBound at h
    omega
  rw [Data.nat, fitsWords, Bool.and_eq_true, decide_eq_true_eq, decide_eq_true_eq]
  omega

theorem fitsWords_list {l : List α} (h : ∀ a, fitsWords (g a) = true) :
    fitsWords (.list (l.map g)) = true := by
  rw [fitsWords]
  induction l with
  | nil => rfl
  | cons a l ih => rw [List.map_cons, fitWords, h, ih, Bool.and_self]

@[simp] theorem fitsWords_strings (l : List String) : fitsWords (strings l) = true :=
  fitsWords_list fitsWords_string

@[simp] theorem fitWordsEntries_nil : fitWordsEntries [] = true := by
  rw [fitWordsEntries]

@[simp] theorem fitWordsEntries_cons (k : String) (d : Data) (es : List (String × Data)) :
    fitWordsEntries ((k, d) :: es) = (fitsWords d && fitWordsEntries es) := by
  rw [fitWordsEntries]

@[simp] theorem fitWordsEntries_append (es fs : List (String × Data)) :
    fitWordsEntries (es ++ fs) = (fitWordsEntries es && fitWordsEntries fs) := by
  induction es with
  | nil => simp
  | cons e es ih =>
    obtain ⟨k, d⟩ := e
    simp [ih, Bool.and_assoc]

@[simp] theorem fitWordsEntries_string? (k : String) (v : Option String) :
    fitWordsEntries (optionalEntry k (v.map .string)) = true := by
  cases v <;> simp [optionalEntry]

end Data

/-! ## Records -/

theorem SourceRoot.ofData?_toData (r : SourceRoot) : ofData? r.toData = some r := by
  simp [ofData?, toData, readEntries, required, readString]

theorem ScanSettings.ofData?_toData (s : ScanSettings) : ofData? s.toData = some s := by
  have hroots : readList SourceRoot.ofData? (.list (s.roots.map (·.toData))) = some s.roots :=
    readList_map fun r _ => r.ofData?_toData
  simp [ofData?, toData, readEntries, orElse, hroots, readBool]

theorem Markers.ofData?_toData (ms : Markers) : ofData? ms.toData = some ms := by
  simp [ofData?, toData, readEntries, orElse]

theorem EngineOptions.ofData?_toData {o : EngineOptions}
    (h : ∀ ms, o.timeoutMs = some ms → ms < natBound) : ofData? o.toData = some o := by
  obtain ⟨parallel, timeout⟩ := o
  cases timeout with
  | none => simp [ofData?, toData, readEntries, orElse, maybe, readBool]
  | some ms =>
    have hread := readNat_nat (h ms rfl)
    simp [ofData?, toData, readEntries, orElse, maybe, readBool, Data.nat] at hread ⊢
    simp [hread]

theorem ForbiddenPattern.ofData?_toData (p : ForbiddenPattern) : ofData? p.toData = some p := by
  simp [ofData?, toData, readEntries, required, readString]

theorem BodyRequirement.ofData?_toData (r : BodyRequirement) : ofData? r.toData = some r := by
  have hmessage : maybe ([("name", .string r.name), ("pattern", .string r.pattern)] ++
      optionalEntry "message" (r.message.map .string)) "message" readString = some r.message :=
    maybe_string (by simp)
  simp [ofData?, toData, readEntries, required, readString] at hmessage ⊢
  simp [hmessage]

theorem CallPair.ofData?_toData (p : CallPair) : ofData? p.toData = some p := by
  simp [ofData?, toData, readEntries, required, readString]

theorem Severity.readChoice_name (s : Severity) :
    readChoice Severity.choices (.string s.name) = some s := by
  cases s <;> rfl

theorem MissingPolicy.readChoice_name (p : MissingPolicy) :
    readChoice MissingPolicy.choices (.string p.name) = some p := by
  cases p <;> rfl

/-! ## Rules -/

namespace RuleKind

/-- The numbers of the kind fit into words. -/
def FitsWords : RuleKind → Prop
  | .enumCoverage _ _ _ argument _ => argument < natBound
  | .window _ _ _ before after _ => before < natBound ∧ after < natBound
  | _ => True

theorem fitWordsEntries_entries {k : RuleKind} (h : k.FitsWords) :
    fitWordsEntries k.entries = true := by
  cases k with
  | forbidden patterns =>
    have hpatterns : fitsWords (.list (patterns.map (·.toData))) = true :=
      fitsWords_list fun p => by simp [ForbiddenPattern.toData, fitsWords]
    simp [entries, hpatterns]
  | enumCoverage enum enumFiles function argument valueFilter =>
    simp [entries, fitsWords_nat h]
  | window function anchor required before after message =>
    simp [entries, fitsWords_nat h.1, fitsWords_nat h.2]
  | functionBody function requirements order =>
    have hrequirements : fitsWords (.list (requirements.map (·.toData))) = true :=
      fitsWords_list fun r => by simp [BodyRequirement.toData, fitsWords]
    have horder : fitsWords (.list (order.map fun pair => strings [pair.1, pair.2])) = true :=
      fitsWords_list fun _ => fitsWords_strings _
    simp [entries, hrequirements, horder]
  | structField struct field type => simp [entries]
  | pairedCalls pairs =>
    have hpairs : fitsWords (.list (pairs.map (·.toData))) = true :=
      fitsWords_list fun p => by simp [CallPair.toData, fitsWords]
    simp [entries, hpairs]

/-- A kind is read back from its fields, and the name of the kind among them is passed over. -/
theorem ofEntries?_entries {k : RuleKind} (h : k.FitsWords) :
    ofEntries? (("kind", .string k.name) :: k.entries) k.name = some k := by
  cases k with
  | forbidden patterns =>
    have hpatterns : readList ForbiddenPattern.ofData? (.list (patterns.map (·.toData))) =
        some patterns := readList_map fun p _ => p.ofData?_toData
    simp [ofEntries?, name, entries, Data.required, hpatterns]
  | enumCoverage enum enumFiles function argument valueFilter =>
    generalize hes : ("kind", Data.string _) :: entries _ = es
    have henum : Data.required es "enum_name" readString = some enum :=
      required_string (by simp [← hes, entries])
    have hfiles : orElse es "enum_files" standardEnumFiles readStrings = some enumFiles :=
      orElse_of_find? (readStrings_strings enumFiles) (by simp [← hes, entries])
    have hfunction : Data.required es "function" readString = some function :=
      required_string (by simp [← hes, entries])
    have hargument : orElse es "argument" 0 readNat = some argument :=
      orElse_of_find? (readNat_nat h) (by simp [← hes, entries])
    have hfilter : maybe es "value_filter" readString = some valueFilter :=
      maybe_string (by simp [← hes, entries])
    simp [ofEntries?, name, henum, hfiles, hfunction, hargument, hfilter]
  | window function anchor required before after message =>
    generalize hes : ("kind", Data.string _) :: entries _ = es
    have hfunction : maybe es "function" readString = some function :=
      maybe_string (by simp [← hes, entries])
    have hanchor : Data.required es "anchor" readString = some anchor :=
      required_string (by simp [← hes, entries])
    have hrequired : Data.required es "required" readString = some required :=
      required_string (by simp [← hes, entries])
    have hbefore : orElse es "before" standardWindow readNat = some before :=
      orElse_of_find? (readNat_nat h.1) (by simp [← hes, entries])
    have hafter : orElse es "after" standardWindow readNat = some after :=
      orElse_of_find? (readNat_nat h.2) (by simp [← hes, entries])
    have hmessage : maybe es "message" readString = some message :=
      maybe_string (by simp [← hes, entries])
    simp [ofEntries?, name, hfunction, hanchor, hrequired, hbefore, hafter, hmessage]
  | functionBody function requirements order =>
    generalize hes : ("kind", Data.string _) :: entries _ = es
    have hfunction : Data.required es "function" readString = some function :=
      required_string (by simp [← hes, entries])
    have hrequirements : orElse es "requires" [] (readList BodyRequirement.ofData?) =
        some requirements :=
      orElse_of_find? (readList_map fun r _ => r.ofData?_toData) (by simp [← hes, entries])
    have hpairs : readList (readPair readString)
        (.list (order.map fun pair => strings [pair.1, pair.2])) = some order :=
      readList_map fun _ _ => rfl
    have horder : orElse es "order" [] (readList (readPair readString)) = some order :=
      orElse_of_find? hpairs (by simp [← hes, entries])
    simp [ofEntries?, name, hfunction, hrequirements, horder]
  | structField struct field type =>
    generalize hes : ("kind", Data.string _) :: entries _ = es
    have hstruct : Data.required es "struct_name" readString = some struct :=
      required_string (by simp [← hes, entries])
    have hfield : Data.required es "field" readString = some field :=
      required_string (by simp [← hes, entries])
    have htype : maybe es "field_type" readString = some type :=
      maybe_string (by simp [← hes, entries])
    simp [ofEntries?, name, hstruct, hfield, htype]
  | pairedCalls pairs =>
    have hpairs : readList CallPair.ofData? (.list (pairs.map (·.toData))) =
        some pairs := readList_map fun p _ => p.ofData?_toData
    simp [ofEntries?, name, entries, Data.required, hpairs]

end RuleKind

namespace RuleSpec

/-- The entries that are not for all rules. -/
def kindEntries (es : List (String × Data)) : List (String × Data) :=
  es.filter fun (k, _) => !commonKeys.contains k

@[simp] theorem kindEntries_append (es fs : List (String × Data)) :
    kindEntries (es ++ fs) = kindEntries es ++ kindEntries fs :=
  List.filter_append ..

theorem kindEntries_optionalEntry_of_common {k : String} (h : k ∈ commonKeys) (v : Option Data) :
    kindEntries (optionalEntry k v) = [] := by
  cases v <;> simp [kindEntries, optionalEntry, h]

theorem kindEntries_optionalEntry_of_own {k : String} (h : k ∉ commonKeys) (v : Option Data) :
    kindEntries (optionalEntry k v) = optionalEntry k v := by
  cases v <;> simp [kindEntries, optionalEntry, h]

/-- No field of a kind has the key of a field that all rules have. -/
theorem kindEntries_entries (k : RuleKind) : kindEntries k.entries = k.entries := by
  cases k with
  | enumCoverage enum enumFiles function argument valueFilter =>
    rw [RuleKind.entries, kindEntries_append, kindEntries_optionalEntry_of_own (by decide)]
    rfl
  | window function anchor required before after message =>
    rw [RuleKind.entries, kindEntries_append, kindEntries_append,
      kindEntries_optionalEntry_of_own (by decide), kindEntries_optionalEntry_of_own (by decide)]
    rfl
  | structField struct field type =>
    rw [RuleKind.entries, kindEntries_append, kindEntries_optionalEntry_of_own (by decide)]
    rfl
  | forbidden => rfl
  | functionBody => rfl
  | pairedCalls => rfl

/-- A field that all rules have is not found among those of a kind. -/
theorem find?_kind_entries {key : String} (h : key ∈ commonKeys) (k : RuleKind) :
    find? key k.entries = none := by
  rw [← kindEntries_entries k]
  generalize k.entries = es
  induction es with
  | nil => rfl
  | cons e es ih =>
    by_cases he : e.1 ∈ commonKeys
    · simpa [kindEntries, he] using ih
    · have hne : e.1 ≠ key := fun heq => he (heq ▸ h)
      rw [kindEntries, List.filter_cons_of_pos (by simpa using he), find?_cons_of_ne hne]
      exact ih

/-- The entries of the table that a rule is written as. -/
def entries (s : RuleSpec) : List (String × Data) :=
  [("id", .string s.id), ("name", .string s.name)] ++
    optionalEntry "description" (s.description.map .string) ++
    [("severity", .string s.severity.name), ("on_missing", .string s.onMissing.name),
     ("files", strings s.files)] ++
    optionalEntry "fix" (s.fix.map .string) ++ [("kind", .string s.kind.name)] ++ s.kind.entries

theorem toData_eq (s : RuleSpec) : s.toData = .table s.entries := rfl

theorem kindEntries_toData (s : RuleSpec) :
    kindEntries s.entries = ("kind", .string s.kind.name) :: s.kind.entries := by
  simp only [entries, kindEntries_append, kindEntries_entries]
  rw [kindEntries_optionalEntry_of_common (by decide),
    kindEntries_optionalEntry_of_common (by decide)]
  rfl

theorem ofData?_toData {s : RuleSpec} (h : s.kind.FitsWords) : ofData? s.toData = some s := by
  have hkind := s.kindEntries_toData
  have hwords : fitWordsEntries (kindEntries s.entries) = true := by
    rw [hkind, fitWordsEntries_cons, fitsWords_string, RuleKind.fitWordsEntries_entries h]
    rfl
  have hread : RuleKind.ofEntries? (kindEntries s.entries) s.kind.name = some s.kind := by
    rw [hkind, RuleKind.ofEntries?_entries h]
  have hkeys : ∀ key, key ∈ commonKeys → find? key s.kind.entries = none :=
    fun _ hkey => find?_kind_entries hkey s.kind
  have hid : required s.entries "id" readString = some s.id :=
    required_string (by simp [entries])
  have hname : required s.entries "name" readString = some s.name :=
    required_string (by simp [entries])
  have hdescription : maybe s.entries "description" readString = some s.description :=
    maybe_string (by simp [entries, hkeys "description" (by decide)])
  have hseverity : orElse s.entries "severity" .fail (readChoice Severity.choices) =
      some s.severity := orElse_of_find? s.severity.readChoice_name (by simp [entries])
  have hmissing : orElse s.entries "on_missing" .skip (readChoice MissingPolicy.choices) =
      some s.onMissing := orElse_of_find? s.onMissing.readChoice_name (by simp [entries])
  have hfiles : orElse s.entries "files" SiteRule.standardFiles readStrings = some s.files :=
    orElse_of_find? (readStrings_strings s.files) (by simp [entries])
  have hfix : maybe s.entries "fix" readString = some s.fix :=
    maybe_string (by simp [entries, hkeys "fix" (by decide)])
  have hkindName : required s.entries "kind" readString = some s.kind.name :=
    required_string (by simp [entries])
  rw [kindEntries] at hwords
  rw [toData_eq, ofData?]
  simp only [hwords, hid, hname, hdescription, hseverity, hmissing, hfiles, hfix, hkindName]
  show (RuleKind.ofEntries? (kindEntries s.entries) s.kind.name >>= fun kind =>
    some { s with kind }) = some s
  rw [hread]
  rfl

end RuleSpec

/-! ## Settings -/

namespace Settings

/-- All numbers fit into words. -/
structure FitsWords (s : Settings) : Prop where
  timeout : ∀ ms, s.engine.timeoutMs = some ms → ms < natBound
  kinds : ∀ r ∈ s.rules, r.kind.FitsWords

/-- **Settings come back as they were written.** Whatever is set is read back, from the empty list
to the largest number, and no standard value takes its place. -/
theorem read_back_as_written (s : Settings) (h : s.FitsWords) : ofData? s.toData = some s := by
  have hscan := s.scan.ofData?_toData
  have hmarkers := s.markers.ofData?_toData
  have hengine := EngineOptions.ofData?_toData h.timeout
  have hrules : readList RuleSpec.ofData? (.list (s.rules.map (·.toData))) = some s.rules :=
    readList_map fun r hr => RuleSpec.ofData?_toData (h.kinds r hr)
  simp [ofData?, toData, orElse, hscan, hmarkers, hengine, hrules]

/-- Empty lists and empty strings where there are standard values, and the largest numbers. -/
theorem read_back_of_extremes :
    ∃ s : Settings, s.scan.roots = [] ∧ s.markers = [] ∧
      s.engine.timeoutMs = some (natBound - 1) ∧ s.FitsWords ∧ ofData? s.toData = some s := by
  let s : Settings :=
    { scan := { roots := [], excludeDirs := [], exclude := [], followLinks := true }
      markers := []
      engine := { parallel := false, timeoutMs := some (natBound - 1) }
      rules :=
        [{ id := "", name := "", description := some "", files := [], fix := some ""
           kind := .enumCoverage "e" [] "f" (natBound - 1) none },
         { id := "", name := "", onMissing := .fail, severity := .warn
           kind := .window (some "") "a" "b" 0 (natBound - 1) none },
         { id := "", name := "", kind := .functionBody "f" [⟨"", "", none⟩] [("", "")] }] }
  have h : s.FitsWords := by
    refine ⟨?_, ?_⟩
    · intro ms hms
      obtain rfl := Option.some.inj hms
      decide
    · intro r hr
      simp only [s, List.mem_cons, List.not_mem_nil, or_false] at hr
      rcases hr with rfl | rfl | rfl
      · show natBound - 1 < natBound
        decide
      · show 0 < natBound ∧ natBound - 1 < natBound
        decide
      · trivial
  exact ⟨s, rfl, rfl, rfl, h, read_back_as_written s h⟩

end Settings
end StructuralRules
