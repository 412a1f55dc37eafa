import Mathlib.Data.List.Sort
import ScriptEngine.Proofs.Dictionary
import ScriptEngine.Proofs.Direct.Reading
import ScriptEngine.Proofs.Except
import ScriptEngine.Proofs.Text.Bytes

/-!
# Loading a set of scripts

The script files among some files are read in the order of their paths. As long as none is refused, the
scripts that were read are known by their names, and no two files have declared the same name (`Loaded`,
`Loaded.addAll`). A file that is refused is no script or declares a name that is known
(`addDeclaration_eq_error`), so it offends, and none with a smaller path does (`firstOffender_of_parseAll`).
There is only one fault that can be reported in this way (`FirstOffender.unique`), and thus loading fails
exactly with that of the first offender (`parseAll_eq_error_iff`) and succeeds exactly if there is none
(`parseAll_eq_ok_iff`).
-/

namespace ScriptEngine

theorem isScriptPath_iff {path : String} :
    isScriptPath path = true ↔ ∃ stem, path = stem ++ ".script.xml" := by
  rw [isScriptPath, List.isSuffixOf_iff_suffix]
  constructor
  · rintro ⟨stem, h⟩
    refine ⟨String.ofList stem, String.toList_inj.mp ?_⟩
    rw [String.toList_append, String.toList_ofList, ← h]
    rfl
  · rintro ⟨stem, rfl⟩
    exact ⟨stem.toList, (String.toList_append).symm⟩

/-- A file whose path is that of a script. -/
structure IsScriptFile (files : Dictionary String) (path source : String) : Prop where
  stored : files.get? path = some source
  named : ∃ stem, path = stem ++ ".script.xml"

/-- A script file declares a script of a name. -/
def DeclaredAt (files : Dictionary String) (path name : String) : Prop :=
  ∃ source script, IsScriptFile files path source ∧ Script.parse path source = .ok script ∧
    script.name = name

/-- What is wrong with a script file in view of those with smaller paths: it is no script, or one of them
declares a script of the same name. -/
inductive Offends (files : Dictionary String) (path source : String) : Fault → Prop
  | unreadable {fault : Fault} : Script.parse path source = .error fault → Offends files path source fault
  | repeated {script : Script} {first : String} : Script.parse path source = .ok script →
      Text.bytes first < Text.bytes path → DeclaredAt files first script.name →
      Offends files path source ⟨.script (.declaredTwice script.name first path), none⟩

/-- The script files in the order of their paths. -/
def scriptFiles (files : Dictionary String) : List (String × String) :=
  files.entries.filter (isScriptPath ·.1)

theorem mem_scriptFiles {files : Dictionary String} {path source : String} :
    (path, source) ∈ scriptFiles files ↔ IsScriptFile files path source := by
  rw [scriptFiles, List.mem_filter, isScriptPath_iff, Dictionary.mem_entries_iff]
  exact ⟨fun ⟨hs, hn⟩ => ⟨hs, hn⟩, fun ⟨hs, hn⟩ => ⟨hs, hn⟩⟩

theorem pairwise_scriptFiles (files : Dictionary String) :
    (scriptFiles files).Pairwise (·.1 < ·.1) :=
  files.ordered.filter _

theorem Script.parse_eq_ok_iff {path source : String} {script : Script} :
    Script.parse path source = .ok script ↔
      ∃ declaration, Declaration.parse path source = .ok declaration ∧ script = declaration.toScript := by
  rw [Script.parse]
  constructor
  · exact ok_of_map
  · rintro ⟨declaration, hd, rfl⟩
    rw [hd]
    rfl

theorem Script.parse_eq_error_iff {path source : String} {fault : Fault} :
    Script.parse path source = .error fault ↔ Declaration.parse path source = .error fault := by
  rw [Script.parse]
  cases Declaration.parse path source with
  | error other =>
    constructor <;> intro h
    · exact congrArg Except.error (Except.error.inj h)
    · exact congrArg Except.error (Except.error.inj h)
  | ok declaration =>
    constructor <;> intro h
    · cases h
    · cases h

/-- A declaration keeps the path under which it was found. -/
theorem Declaration.path_of_parse {path source : String} {declaration : Declaration}
    (h : Declaration.parse path source = .ok declaration) : declaration.path = path := by
  obtain ⟨root, -, h⟩ := ok_of_bind h
  unfold Declaration.ofElement at h
  split at h
  · cases h
  obtain ⟨name, -, h⟩ := ok_of_bind h
  obtain ⟨returnType, -, h⟩ := ok_of_bind h
  obtain ⟨body, -, h⟩ := ok_of_bind h
  split at h
  · cases h
  · rw [← Except.ok.inj h]

/-- What has a smaller path than a file stands before it. -/
theorem mem_before_of_lt {before after : List (String × String)} {file other : String × String}
    (hsorted : (before ++ file :: after).Pairwise (·.1 < ·.1)) (hm : other ∈ before ++ file :: after)
    (hlt : other.1 < file.1) : other ∈ before := by
  have hlater := (List.pairwise_cons.mp (List.pairwise_append.mp hsorted).2.1).1
  rcases List.mem_append.mp hm with hb | hm
  · exact hb
  rcases List.mem_cons.mp hm with rfl | ha
  · exact absurd hlt (String.lt_irrefl _)
  · exact absurd (String.lt_trans hlt (hlater other ha)) (String.lt_irrefl _)

/-! ## Adding one file after the other -/

/-- Of the files that were read each is a declaration, and the declarations are known by their names. -/
structure Loaded (read : List (String × String)) (known : Dictionary Declaration) : Prop where
  readable : ∀ file ∈ read, ∃ declaration, Declaration.parse file.1 file.2 = .ok declaration
  known : ∀ name declaration, known.get? name = some declaration ↔
    ∃ file ∈ read, Declaration.parse file.1 file.2 = .ok declaration ∧ declaration.name = name

theorem loaded_empty : Loaded [] .empty :=
  ⟨by simp, by simp [Dictionary.get?, Dictionary.empty]⟩

/-- No two files that were read declare the same name. -/
theorem Loaded.path_eq {read : List (String × String)} {known : Dictionary Declaration}
    (h : Loaded read known) {file other : String × String} (hf : file ∈ read) (ho : other ∈ read)
    {declaration declaration' : Declaration} (hd : Declaration.parse file.1 file.2 = .ok declaration)
    (hd' : Declaration.parse other.1 other.2 = .ok declaration')
    (hn : declaration.name = declaration'.name) : file.1 = other.1 := by
  have hk := (h.known _ _).mpr ⟨file, hf, hd, hn⟩
  have hk' := (h.known _ _).mpr ⟨other, ho, hd', rfl⟩
  have he := Option.some.inj (hk.symm.trans hk')
  rw [← Declaration.path_of_parse hd, ← Declaration.path_of_parse hd', he]

/-- A file is added if its name is new. -/
theorem addDeclaration_eq_ok {known after : Dictionary Declaration} {path source : String}
    (h : addDeclaration known path source = .ok after) :
    ∃ declaration, Declaration.parse path source = .ok declaration ∧
      known.get? declaration.name = none ∧ after = known.insert declaration.name declaration := by
  obtain ⟨declaration, hd, h⟩ := ok_of_bind h
  split at h
  · cases h
  · rename_i hnew
    exact ⟨declaration, hd, hnew, (Except.ok.inj h).symm⟩

/-- A file is refused because it is no script or because its name is known. -/
theorem addDeclaration_eq_error {known : Dictionary Declaration} {path source : String} {fault : Fault}
    (h : addDeclaration known path source = .error fault) :
    Declaration.parse path source = .error fault ∨
      ∃ declaration first, Declaration.parse path source = .ok declaration ∧
        known.get? declaration.name = some first ∧
        fault = ⟨.script (.declaredTwice declaration.name first.path path), none⟩ := by
  rcases error_of_bind h with hp | ⟨declaration, hd, h⟩
  · exact .inl hp
  · split at h
    · rename_i first hfirst
      exact .inr ⟨declaration, first, hd, hfirst, (Except.error.inj h).symm⟩
    · cases h

theorem Loaded.add {read : List (String × String)} {known after : Dictionary Declaration}
    (h : Loaded read known) {file : String × String} (ha : addDeclaration known file.1 file.2 = .ok after) :
    Loaded (read ++ [file]) after := by
  obtain ⟨declaration, hd, hnew, rfl⟩ := addDeclaration_eq_ok ha
  have hlast {f : String × String} : f ∈ read ++ [file] ↔ f ∈ read ∨ f = file := by simp
  refine ⟨fun f hf => ?_, fun name other => ?_⟩
  · rcases hlast.mp hf with hf | rfl
    · exact h.readable f hf
    · exact ⟨declaration, hd⟩
  by_cases hn : name = declaration.name
  · rw [hn, Dictionary.get?_insert_self]
    constructor
    · rintro ⟨⟩
      exact ⟨file, hlast.mpr (.inr rfl), hd, rfl⟩
    · rintro ⟨f, hf, ho, hname⟩
      rcases hlast.mp hf with hf | rfl
      · -- The name is new, so no file that was read before has it.
        have hknown := (h.known _ _).mpr ⟨f, hf, ho, hname⟩
        cases hnew.symm.trans hknown
      · exact congrArg some (Except.ok.inj (hd.symm.trans ho))
  · rw [Dictionary.get?_insert_other _ hn, h.known]
    constructor
    · rintro ⟨f, hf, ho⟩
      exact ⟨f, hlast.mpr (.inl hf), ho⟩
    · rintro ⟨f, hf, ho, hname⟩
      rcases hlast.mp hf with hf | rfl
      · exact ⟨f, hf, ho, hname⟩
      · rw [← hname, Except.ok.inj (hd.symm.trans ho)] at hn
        exact absurd rfl hn

/-- All files can be added. -/
theorem Loaded.addAll {read files : List (String × String)} {known after : Dictionary Declaration}
    (h : Loaded read known)
    (ha : files.foldlM (fun known file => addDeclaration known file.1 file.2) known = .ok after) :
    Loaded (read ++ files) after := by
  induction files generalizing read known with
  | nil =>
    rw [List.append_nil, ← Except.ok.inj ha]
    exact h
  | cons file rest ih =>
    rw [List.foldlM_cons] at ha
    obtain ⟨next, hn, ha⟩ := ok_of_bind ha
    have hall := ih (h.add hn) ha
    rwa [List.append_assoc] at hall

/-! ## The first offender -/

section

variable {files : Dictionary String}

/-- Files that can be loaded do not offend, if all that have smaller paths are among them. -/
theorem Loaded.not_offends {read : List (String × String)} {known : Dictionary Declaration}
    (h : Loaded read known) {file : String × String} (hf : file ∈ read)
    (hsmaller : ∀ path source, IsScriptFile files path source → path < file.1 → (path, source) ∈ read)
    (fault : Fault) : ¬ Offends files file.1 file.2 fault := by
  obtain ⟨declaration, hd⟩ := h.readable file hf
  intro ho
  cases ho with
  | unreadable hp => cases hd.symm.trans (Script.parse_eq_error_iff.mp hp)
  | @repeated script first hp hlt hfirst =>
    obtain ⟨source, other, hfile, hother, hname⟩ := hfirst
    obtain ⟨d, hd, rfl⟩ := Script.parse_eq_ok_iff.mp hp
    obtain ⟨d', hd', rfl⟩ := Script.parse_eq_ok_iff.mp hother
    have hless : first < file.1 := Text.lt_iff_bytes_lt.mpr hlt
    have heq := h.path_eq (hsmaller first source hfile hless) hf hd' hd hname
    exact String.lt_irrefl _ (heq ▸ hless)

/-- A file that cannot be added to those with smaller paths offends. -/
theorem Loaded.offends {read after : List (String × String)} {known : Dictionary Declaration}
    (h : Loaded read known) {file : String × String}
    (hsplit : scriptFiles files = read ++ file :: after) {fault : Fault}
    (hadd : addDeclaration known file.1 file.2 = .error fault) : Offends files file.1 file.2 fault := by
  rcases addDeclaration_eq_error hadd with hp | ⟨declaration, first, hd, hfirst, rfl⟩
  · exact .unreadable (Script.parse_eq_error_iff.mpr hp)
  obtain ⟨other, ho, hother, hname⟩ := (h.known _ _).mp hfirst
  have hpath := Declaration.path_of_parse hother
  have hless : other.1 < file.1 := by
    have hsorted := pairwise_scriptFiles files
    rw [hsplit, List.pairwise_append] at hsorted
    exact hsorted.2.2 other ho file List.mem_cons_self
  have hfile : IsScriptFile files other.1 other.2 :=
    mem_scriptFiles.mp (hsplit ▸ List.mem_append_left _ ho)
  rw [hpath]
  exact .repeated (Script.parse_eq_ok_iff.mpr ⟨declaration, hd, rfl⟩) (Text.lt_iff_bytes_lt.mp hless)
    ⟨other.2, first.toScript, hfile, Script.parse_eq_ok_iff.mpr ⟨first, hother, rfl⟩, hname⟩

theorem loaded_of_parseAll {scripts : Dictionary Script} (h : Script.parseAll files = .ok scripts) :
    ∃ known, Loaded (scriptFiles files) known ∧ scripts = known.map (·.toScript) := by
  obtain ⟨known, hk, hs⟩ := ok_of_map h
  exact ⟨known, loaded_empty.addAll hk, hs⟩

/-- A file and a fault that are to be reported: no file with a smaller path offends. -/
structure FirstOffender (files : Dictionary String) (path source : String) (fault : Fault) : Prop where
  file : IsScriptFile files path source
  offends : Offends files path source fault
  least : ∀ path' source' fault', IsScriptFile files path' source' → Offends files path' source' fault' →
    Text.bytes path ≤ Text.bytes path'

theorem firstOffender_of_parseAll {fault : Fault}
    (h : Script.parseAll files = .error fault) : ∃ path source, FirstOffender files path source fault := by
  have hparse : Declaration.parseAll files = .error fault := by
    rw [Script.parseAll] at h
    cases hd : Declaration.parseAll files with
    | error other =>
      rw [hd] at h
      exact congrArg Except.error (Except.error.inj h)
    | ok known =>
      rw [hd] at h
      cases h
  obtain ⟨before, file, after, known, hsplit, hknown, hadd⟩ := foldlM_eq_error hparse
  have hloaded : Loaded before known := loaded_empty.addAll hknown
  have hsorted : (before ++ file :: after).Pairwise (·.1 < ·.1) := hsplit ▸ pairwise_scriptFiles files
  have hmem {f : String × String} : f ∈ before ++ file :: after ↔ IsScriptFile files f.1 f.2 :=
    hsplit ▸ mem_scriptFiles
  refine ⟨file.1, file.2, hmem.mp (by simp), hloaded.offends hsplit hadd, ?_⟩
  intro path source fault' hfile hoffends
  refine List.not_lt.mp fun hlt => ?_
  have hless : path < file.1 := Text.lt_iff_bytes_lt.mpr hlt
  have hbefore : (path, source) ∈ before := mem_before_of_lt hsorted (hmem.mpr hfile) hless
  refine hloaded.not_offends hbefore (fun path' source' hfile' hlt' => ?_) fault' hoffends
  exact mem_before_of_lt hsorted (hmem.mpr hfile') (String.lt_trans hlt' hless)

theorem path_eq_of_bytes_le {path path' : String} (h : Text.bytes path ≤ Text.bytes path')
    (h' : Text.bytes path' ≤ Text.bytes path) : path = path' := by
  refine String.le_antisymm (fun hlt => ?_) fun hlt => ?_
  · exact List.not_lt.mpr h (Text.lt_iff_bytes_lt.mp hlt)
  · exact List.not_lt.mpr h' (Text.lt_iff_bytes_lt.mp hlt)

/-- There is one fault to report. -/
theorem FirstOffender.unique {path path' source source' : String} {fault fault' : Fault}
    (h : FirstOffender files path source fault) (h' : FirstOffender files path' source' fault') :
    fault = fault' := by
  obtain rfl := path_eq_of_bytes_le (h.least _ _ _ h'.file h'.offends) (h'.least _ _ _ h.file h.offends)
  obtain rfl := Option.some.inj (h.file.stored.symm.trans h'.file.stored)
  -- Of two smaller files with the same name the second one would offend.
  have hfirst {first second name : String} (hd : DeclaredAt files first name)
      (hd' : DeclaredAt files second name) (hlt : Text.bytes second < Text.bytes path) :
      Text.bytes second ≤ Text.bytes first := by
    refine List.not_lt.mp fun hless => ?_
    obtain ⟨source', script, hfile, hparse, rfl⟩ := hd'
    exact List.not_lt.mpr (h.least _ _ _ hfile (.repeated hparse hless hd)) hlt
  cases h.offends with
  | unreadable hp =>
    cases h'.offends with
    | unreadable hp' => exact Except.error.inj (hp.symm.trans hp')
    | repeated hp' => cases hp.symm.trans hp'
  | @repeated script first hp hlt hd =>
    cases h'.offends with
    | unreadable hp' => cases hp.symm.trans hp'
    | @repeated script' first' hp' hlt' hd' =>
      obtain rfl := Except.ok.inj (hp.symm.trans hp')
      rw [path_eq_of_bytes_le (hfirst hd' hd hlt) (hfirst hd hd' hlt')]

/-- Loading fails exactly with the fault of the first offender. -/
theorem parseAll_eq_error_iff {fault : Fault} :
    Script.parseAll files = .error fault ↔ ∃ path source, FirstOffender files path source fault := by
  refine ⟨firstOffender_of_parseAll, ?_⟩
  rintro ⟨path, source, hfirst⟩
  cases hp : Script.parseAll files with
  | error fault' =>
    obtain ⟨path', source', hfirst'⟩ := firstOffender_of_parseAll hp
    rw [hfirst.unique hfirst']
  | ok scripts =>
    obtain ⟨known, hloaded, -⟩ := loaded_of_parseAll hp
    have hmem := mem_scriptFiles.mpr hfirst.file
    exact absurd hfirst.offends
      (hloaded.not_offends hmem (fun _ _ hfile _ => mem_scriptFiles.mpr hfile) fault)

/-- Loading succeeds exactly if all script files are scripts and their names are distinct. -/
theorem parseAll_eq_ok_iff :
    (∃ scripts, Script.parseAll files = .ok scripts) ↔
      (∀ path source, IsScriptFile files path source → ∃ script, Script.parse path source = .ok script) ∧
      ∀ path path' name, DeclaredAt files path name → DeclaredAt files path' name → path = path' := by
  constructor
  · rintro ⟨scripts, hp⟩
    obtain ⟨known, hloaded, -⟩ := loaded_of_parseAll hp
    refine ⟨fun path source hfile => ?_, fun path path' name hd hd' => ?_⟩
    · obtain ⟨declaration, hd⟩ := hloaded.readable _ (mem_scriptFiles.mpr hfile)
      exact ⟨_, Script.parse_eq_ok_iff.mpr ⟨declaration, hd, rfl⟩⟩
    · obtain ⟨source, script, hfile, hparse, rfl⟩ := hd
      obtain ⟨source', script', hfile', hparse', hname⟩ := hd'
      obtain ⟨d, hd, rfl⟩ := Script.parse_eq_ok_iff.mp hparse
      obtain ⟨d', hd', rfl⟩ := Script.parse_eq_ok_iff.mp hparse'
      have hm := mem_scriptFiles.mpr hfile
      have hm' := mem_scriptFiles.mpr hfile'
      exact hloaded.path_eq hm hm' hd hd' hname.symm
  · rintro ⟨hreadable, hdistinct⟩
    cases hp : Script.parseAll files with
    | ok scripts => exact ⟨scripts, rfl⟩
    | error fault =>
      obtain ⟨path, source, hfirst⟩ := firstOffender_of_parseAll hp
      obtain ⟨script, hs⟩ := hreadable path source hfirst.file
      cases hfirst.offends with
      | unreadable he => cases hs.symm.trans he
      | repeated hparse hlt hd =>
        rw [hdistinct _ _ _ hd ⟨source, _, hfirst.file, hparse, rfl⟩] at hlt
        exact absurd hlt (List.lt_irrefl _)

/-- Scripts are known by their names, and each of them is that of the file with its path. -/
theorem get?_of_parseAll {scripts : Dictionary Script}
    (h : Script.parseAll files = .ok scripts) {name : String} {script : Script} :
    scripts.get? name = some script ↔ name = script.name ∧
      ∃ source, IsScriptFile files script.path source ∧ Script.parse script.path source = .ok script := by
  obtain ⟨known, hloaded, rfl⟩ := loaded_of_parseAll h
  rw [Dictionary.get?_map, Option.map_eq_some_iff]
  constructor
  · rintro ⟨declaration, hk, rfl⟩
    obtain ⟨⟨path, source⟩, hm, hd, rfl⟩ := (hloaded.known _ _).mp hk
    obtain rfl := Declaration.path_of_parse hd
    exact ⟨rfl, source, mem_scriptFiles.mp hm,
      Script.parse_eq_ok_iff.mpr ⟨declaration, hd, rfl⟩⟩
  · rintro ⟨rfl, source, hfile, hparse⟩
    obtain ⟨declaration, hd, he⟩ := Script.parse_eq_ok_iff.mp hparse
    refine ⟨declaration, (hloaded.known _ _).mpr ⟨_, mem_scriptFiles.mpr hfile, hd, ?_⟩, he.symm⟩
    rw [he]
    rfl

/-- Each script file has one entry. -/
theorem existsUnique_entry_of_parseAll {scripts : Dictionary Script}
    (h : Script.parseAll files = .ok scripts) {path source : String}
    (hfile : IsScriptFile files path source) :
    ∃! entry, entry ∈ scripts.entries ∧ entry.2.path = path := by
  obtain ⟨script, hparse⟩ := (parseAll_eq_ok_iff.mp ⟨scripts, h⟩).1 path source hfile
  have hpath : script.path = path := by
    obtain ⟨declaration, hd, rfl⟩ := Script.parse_eq_ok_iff.mp hparse
    exact Declaration.path_of_parse hd
  subst hpath
  refine ⟨(script.name, script), ⟨?_, rfl⟩, ?_⟩
  · exact Dictionary.mem_entries_iff.mpr ((get?_of_parseAll h).mpr ⟨rfl, source, hfile, hparse⟩)
  · rintro ⟨name, other⟩ ⟨hm, hpath⟩
    obtain ⟨rfl, source', hfile', hparse'⟩ := (get?_of_parseAll h).mp (Dictionary.mem_entries_iff.mp hm)
    have hp : other.path = script.path := hpath
    rw [hp] at hfile' hparse'
    obtain rfl := Option.some.inj (hfile.stored.symm.trans hfile'.stored)
    rw [Except.ok.inj (hparse.symm.trans hparse')]

/-- Files that are no script files do not matter. -/
theorem parseAll_congr {others : Dictionary String}
    (h : ∀ path source, IsScriptFile others path source ↔ IsScriptFile files path source) :
    Script.parseAll others = Script.parseAll files := by
  have hnodup (d : Dictionary String) : (scriptFiles d).Nodup := by
    refine List.Pairwise.imp (fun {file later} hlt he => ?_) (pairwise_scriptFiles d)
    exact String.lt_irrefl later.1 (he ▸ hlt)
  have hperm : (scriptFiles others).Perm (scriptFiles files) := by
    refine (List.perm_ext_iff_of_nodup (hnodup others) (hnodup files)).mpr fun file => ?_
    exact mem_scriptFiles.trans ((h file.1 file.2).trans mem_scriptFiles.symm)
  have hsame : scriptFiles others = scriptFiles files :=
    hperm.eq_of_pairwise
      (fun file file' _ _ hlt hlt' => absurd (String.lt_trans hlt hlt') (String.lt_irrefl _))
      (pairwise_scriptFiles others) (pairwise_scriptFiles files)
  rw [scriptFiles, scriptFiles] at hsame
  rw [Script.parseAll, Declaration.parseAll, hsame, Script.parseAll, Declaration.parseAll]

end

/-- Loading takes all scripts or reports the first offender. It succeeds exactly if each file whose path has
the ending of script files is a script and no two of them declare the same name. Then the result has one
entry for each such file, under the name of the script and with the path of the file. Files with other paths
have no influence. If loading fails, the fault is that of the file with the least path, in the order of
bytes, that is no script or declares a name that a file with a smaller path has declared; in the second case
the fault names both paths. -/
theorem scripts_load_or_first_offender_is_reported (files : Dictionary String) :
    ((∃ scripts, Script.parseAll files = .ok scripts) ↔
      (∀ path source, IsScriptFile files path source → ∃ script, Script.parse path source = .ok script) ∧
      ∀ path path' name, DeclaredAt files path name → DeclaredAt files path' name → path = path') ∧
    (∀ scripts, Script.parseAll files = .ok scripts → scripts.keys.Pairwise (· < ·) ∧
      (∀ name script, scripts.get? name = some script ↔ name = script.name ∧
        ∃ source, IsScriptFile files script.path source ∧ Script.parse script.path source = .ok script) ∧
      ∀ path source, IsScriptFile files path source →
        ∃! entry, entry ∈ scripts.entries ∧ entry.2.path = path) ∧
    (∀ others : Dictionary String,
      (∀ path source, IsScriptFile others path source ↔ IsScriptFile files path source) →
      Script.parseAll others = Script.parseAll files) ∧
    (∀ fault, Script.parseAll files = .error fault ↔
      ∃ path source, FirstOffender files path source fault) ∧
    ∀ name first path, (Fault.mk (.script (.declaredTwice name first path)) none).message =
      "Script \"" ++ name ++ "\" is declared in both \"" ++ first ++ "\" and \"" ++ path ++ "\"." := by
  refine ⟨parseAll_eq_ok_iff,
    fun scripts h => ⟨scripts.pairwise_keys, fun name script => get?_of_parseAll h, ?_⟩,
    fun others h => parseAll_congr h, fun fault => parseAll_eq_error_iff, ?_⟩
  · exact fun path source hfile => existsUnique_entry_of_parseAll h hfile
  · exact fun name first path => rfl

/-- Two scripts and a file that is none. -/
def siblings : Dictionary String := .ofList
  [("b.script.xml", "<script name=\"one\"/>"), ("a.script.xml", "<script name=\"two\"/>"),
    ("a.txt", "<oops")]

/-- Two scripts of the same name, and a file behind them that is no script. -/
def twins : Dictionary String := .ofList
  [("c.script.xml", "<oops"), ("b.script.xml", "<script name=\"twin\"/>"),
    ("a.script.xml", "<script name=\"twin\"/>")]

/-- The siblings are loaded, whatever stands in the third file. Of the twins the second one is reported, and
not the file behind it. -/
theorem siblings_load_twins_are_reported :
    (∃ scripts, Script.parseAll siblings = .ok scripts ∧ scripts.keys = ["one", "two"] ∧
      (∃! entry, entry ∈ scripts.entries ∧ entry.2.path = "b.script.xml") ∧
      Script.parseAll (siblings.insert "a.txt" "") = .ok scripts) ∧
    ∃ path source, FirstOffender twins path source
      ⟨.script (.declaredTwice "twin" "a.script.xml" "b.script.xml"), none⟩ := by
  have hkeys : (Script.parseAll siblings).toOption.map (·.keys) = some ["one", "two"] := by decide +kernel
  obtain ⟨scripts, hs, hkeys⟩ := ok_of_toOption_map hkeys
  obtain ⟨-, hloaded, hothers, -⟩ := scripts_load_or_first_offender_is_reported siblings
  obtain ⟨-, -, -, hfault, -⟩ := scripts_load_or_first_offender_is_reported twins
  have hfile : IsScriptFile siblings "b.script.xml" "<script name=\"one\"/>" :=
    ⟨by decide +kernel, "b", rfl⟩
  have hnotes (path : String) (h : ∃ stem, path = stem ++ ".script.xml") : path ≠ "a.txt" := by
    rintro rfl
    have hending : isScriptPath "a.txt" = false := by decide
    exact absurd (isScriptPath_iff.mpr h) (Bool.eq_false_iff.mp hending)
  refine ⟨⟨scripts, hs, hkeys, (hloaded scripts hs).2.2 _ _ hfile, ?_⟩, (hfault _).mp (by decide +kernel)⟩
  rw [← hs]
  refine hothers _ fun path source => ?_
  constructor
  · rintro ⟨hstored, hnamed⟩
    exact ⟨Dictionary.get?_insert_other siblings (hnotes path hnamed) _ ▸ hstored, hnamed⟩
  · rintro ⟨hstored, hnamed⟩
    exact ⟨(Dictionary.get?_insert_other siblings (hnotes path hnamed) _).trans hstored, hnamed⟩

end ScriptEngine
