import BucketStats.Proofs.Command.Stages
/-!
# Contents that do not matter

Emptying files leaves everything about them but their contents: what is found at a path, and whether
a path can be written.  A request that gives the label, the precision and quantiles itself is carried
out in the same way with emptied files, so the contents of the settings file decide nothing.
-/

namespace BucketStats.Command

open Steps

/-! ## Emptied files -/

def Found.emptied : Found → Found
  | .file _ => .file []
  | found => found

/-- The files as they would be if none of them held anything. -/
def Files.emptied (files : Files) : Files :=
  ⟨fun p ↦ (files.lookUp p).emptied, files.refusal, files.library⟩

def Place.emptied : Place → Place
  | .file _ => .file []
  | place => place

namespace Directory

def emptied (d : Directory) : Directory :=
  d.map fun e ↦ (e.1, [])

variable (d : Directory)

theorem find?_emptied (parts : List String) :
    d.emptied.find? parts = (d.find? parts).map fun _ ↦ [] := by
  unfold emptied Entries.find?
  rw [List.find?_map, Option.map_map, Option.map_map]
  rfl

theorem enter_emptied (parts : List String) :
    d.emptied.enter parts = (d.enter parts).emptied := by
  have hany : (d.emptied.any fun e ↦ parts.isPrefixOf e.1) =
      d.any fun e ↦ parts.isPrefixOf e.1 := by
    unfold emptied
    rw [List.any_map]
    rfl
  unfold enter
  rw [find?_emptied, hany]
  cases d.find? parts with
  | some bytes => rfl
  | none =>
    rw [Option.map_none]
    split_ifs <;> rfl

theorem emptied_enterSystem (directory : Option String) (name : String) :
    (enterSystem directory name).emptied = enterSystem directory name := by
  unfold enterSystem
  cases directory with
  | none => split_ifs <;> rfl
  | some directory =>
    dsimp only
    split_ifs <;> rfl

theorem enterName_emptied (place : Place) (name : String) :
    d.emptied.enterName place.emptied name = (d.enterName place name).emptied := by
  unfold enterName
  split_ifs
  · rfl
  · cases place with
    | inside parts => exact enter_emptied d (parts ++ [name])
    | system directory => exact (emptied_enterSystem directory name).symm
    | above => rfl
    | file bytes => rfl
    | blocked obstacle => rfl

theorem isDirectory_emptied (place : Place) : place.emptied.isDirectory = place.isDirectory := by
  cases place <;> rfl

theorem parent_emptied (place : Place) : place.emptied.parent = place.parent.emptied := by
  cases place with
  | inside parts => cases parts <;> rfl
  | above => rfl
  | system directory => rfl
  | file bytes => rfl
  | blocked obstacle => rfl

theorem step_of_isDirectory {place : Place} (hplace : place.isDirectory = true) (part : String) :
    d.step place part =
      if part = "." then place else if part = ".." then place.parent else d.enterName place part := by
  cases place with
  | inside parts => rfl
  | above => rfl
  | system directory => rfl
  | file bytes => cases hplace
  | blocked obstacle => cases hplace

/-- Where a step leads does not depend on what files hold. -/
theorem step_emptied (place : Place) (part : String) :
    d.emptied.step place.emptied part = (d.step place part).emptied := by
  by_cases hplace : place.isDirectory = true
  · have hplace' : place.emptied.isDirectory = true := by rw [isDirectory_emptied, hplace]
    rw [step_of_isDirectory _ hplace, step_of_isDirectory _ hplace', parent_emptied,
      enterName_emptied]
    split_ifs <;> rfl
  · cases place with
    | inside parts => exact absurd rfl hplace
    | above => exact absurd rfl hplace
    | system directory => exact absurd rfl hplace
    | file bytes => rfl
    | blocked obstacle => rfl

/-- Nor does it where a whole path leads. -/
theorem walk_emptied (p : Path) : d.emptied.walk p = (d.walk p).emptied := by
  have hstart : (start p.root).emptied = start p.root := by
    unfold start
    split_ifs <;> rfl
  have hwalk : p.parts.foldl d.emptied.step (start p.root).emptied =
      (p.parts.foldl d.step (start p.root)).emptied :=
    List.foldl_hom Place.emptied (step_emptied d)
  rw [hstart] at hwalk
  exact hwalk

theorem lookUp_emptied (p : Path) : d.emptied.lookUp p = (d.lookUp p).emptied := by
  unfold lookUp
  rw [walk_emptied]
  split_ifs
  · rfl
  · rfl
  · cases d.walk p with
    | blocked obstacle => cases obstacle <;> rfl
    | inside parts => rfl
    | above => rfl
    | system directory => rfl
    | file bytes => rfl

theorem lastRefusal_of_isDirectory (shown : String) (slashed : Bool) {place : Place}
    (hplace : place.isDirectory = true) (name : String) :
    d.lastRefusal shown slashed place name =
      let target := d.step place name
      if slashed || target.isDirectory then some (.isDirectory shown)
      else if target = .blocked .nameTooLong then some (.nameTooLong shown)
      else none := by
  cases place with
  | inside parts => rfl
  | above => rfl
  | system directory => rfl
  | file bytes => cases hplace
  | blocked obstacle => cases hplace

theorem lastRefusal_emptied (shown : String) (slashed : Bool) (place : Place) (name : String) :
    d.emptied.lastRefusal shown slashed place.emptied name =
      d.lastRefusal shown slashed place name := by
  by_cases hplace : place.isDirectory = true
  · have hplace' : place.emptied.isDirectory = true := by rw [isDirectory_emptied, hplace]
    have htarget : (d.step place name).emptied = .blocked .nameTooLong ↔
        d.step place name = .blocked .nameTooLong := by
      cases d.step place name <;> simp [Place.emptied]
    rw [lastRefusal_of_isDirectory _ _ _ hplace, lastRefusal_of_isDirectory _ _ _ hplace']
    simp only [step_emptied, isDirectory_emptied, htarget]
  · cases place with
    | inside parts => exact absurd rfl hplace
    | above => exact absurd rfl hplace
    | system directory => exact absurd rfl hplace
    | file bytes => rfl
    | blocked obstacle => rfl

theorem refusal_emptied (s : String) : d.emptied.refusal s = d.refusal s := by
  unfold refusal
  simp only [walk_emptied, lastRefusal_emptied]

theorem toFiles_emptied : d.emptied.toFiles = d.toFiles.emptied := by
  unfold toFiles Files.emptied
  rw [funext (lookUp_emptied d), funext (refusal_emptied d)]

/-- Whatever is written to a file, the directory is the same but for contents. -/
theorem emptied_put (parts : List String) (bytes : List UInt8) :
    emptied (d.put parts bytes) = d.emptied.put parts [] := by
  induction d with
  | nil => rfl
  | cons e rest ih =>
    obtain ⟨parts', bytes'⟩ := e
    by_cases hparts : parts' = parts
    · simp [emptied, Entries.put, Entries.putBy, hparts]
    · simpa [emptied, Entries.put, Entries.putBy, hparts] using ih

end Directory

/-! ## Requests that need no settings file -/

/-- Whether a request gives the label, the precision and quantiles itself. -/
structure Request.IsExplicit (r : Request) : Prop where
  label : nonEmpty r.label ≠ none
  precision : r.precision ≠ .absent
  quantiles : r.quantiles ≠ []

section Explicit

variable {program : String} {files files' : Files} {r : Request} {arguments : List String}

/-- Whatever the contents of a settings file are, reading it tells the same and does not fail. -/
theorem loadDefaults_emptied_bind {α : Type} (config : Given String) (steps : Steps α) :
    (do let _ ← loadDefaults program files.emptied config; steps) =
      (do let _ ← loadDefaults program files config; steps) := by
  unfold loadDefaults
  cases nonEmpty config with
  | none => rfl
  | some s =>
    have hlookUp : files.emptied.lookUp (Path.ofText s) =
        (files.lookUp (Path.ofText s)).emptied := rfl
    simp only [hlookUp]
    cases files.lookUp (Path.ofText s) with
    | file bytes => rfl
    | directory => rfl
    | nothing => rfl
    | nameTooLong => rfl

theorem choosePrecision_of_ne_absent {given : Given Int} (hgiven : given ≠ .absent)
    (otherwise otherwise' : Nat) :
    choosePrecision program given otherwise = choosePrecision program given otherwise' := by
  cases given with
  | absent => exact absurd rfl hgiven
  | bare => rfl
  | value n => rfl

theorem chooseQuantiles_of_ne_nil {given : List (Given Binary64)} (hgiven : given ≠ [])
    (otherwise otherwise' : List Binary64) :
    chooseQuantiles program given otherwise = chooseQuantiles program given otherwise' := by
  unfold chooseQuantiles
  rw [List.isEmpty_eq_false_iff.2 hgiven, if_neg Bool.false_ne_true, if_neg Bool.false_ne_true]

/-- An explicit request leaves nothing for the defaults to decide. -/
theorem prepare_of_isExplicit (hr : r.IsExplicit) :
    prepare program files r =
      (do let _ ← loadDefaults program files r.config
          prepare program files { r with config := .absent }) := by
  obtain ⟨label, hlabel⟩ := Option.ne_none_iff_exists'.1 hr.label
  unfold prepare
  simp only [hlabel, Option.getD_some]
  have hdefaults : loadDefaults program files .absent = pure .builtin := rfl
  simp only [hdefaults, pure_bind]
  congr 1
  funext defaults
  rw [choosePrecision_of_ne_absent hr.precision defaults.precision Defaults.builtin.precision,
    chooseQuantiles_of_ne_nil hr.quantiles defaults.quantiles Defaults.builtin.quantiles]

/-- An explicit request is carried out in the same way whatever the files hold. -/
theorem execute_emptied (hr : r.IsExplicit) :
    execute program files.emptied r = execute program files r := by
  have hprepare : prepare program files.emptied { r with config := .absent } =
      prepare program files { r with config := .absent } := rfl
  have hdeliver : deliver files.emptied r = deliver files r := rfl
  rw [execute_eq, execute_eq, prepare_of_isExplicit hr, prepare_of_isExplicit hr, hprepare,
    hdeliver, loadDefaults_emptied_bind]

theorem run_eq_of_emptied (program : String) (hread : readArguments arguments = .ok r)
    (hr : r.IsExplicit) (hfiles : files.emptied = files'.emptied) :
    run program files arguments = run program files' arguments := by
  have hexecute : execute program files r = execute program files' r := by
    calc
      execute program files r = execute program files.emptied r := (execute_emptied hr).symm
      _ = execute program files'.emptied r := by rw [hfiles]
      _ = execute program files' r := execute_emptied hr
  rw [run_of_request hread, run_of_request hread, hexecute]

/-- Where the arguments give all settings of the report, runs on files that differ in nothing but
their contents are the same: they tell, print and save the same and end in the same way.  In
particular, no file of a directory holds anything that matters. -/
theorem run_ignores_contents (program : String) (hread : readArguments arguments = .ok r)
    (hr : r.IsExplicit) :
    (∀ files files' : Files, files.emptied = files'.emptied →
      run program files arguments = run program files' arguments) ∧
    ∀ (d : Directory) (path : List String) (bytes bytes' : List UInt8),
      run program (Directory.toFiles (d.put path bytes)) arguments =
        run program (Directory.toFiles (d.put path bytes')) arguments := by
  refine ⟨fun files files' hfiles ↦ run_eq_of_emptied program hread hr hfiles, ?_⟩
  intro d path bytes bytes'
  apply run_eq_of_emptied program hread hr
  rw [← Directory.toFiles_emptied, ← Directory.toFiles_emptied, Directory.emptied_put,
    Directory.emptied_put]

/-- Settings that could not be used do no harm, and neither does a file that is no text. -/
theorem run_ignores_contents_of_report :
    let arguments := ["0", "3", "--label=x", "--precision", "2", "--quantile=0.5", "--config",
      "report.ini", "--xlsx", "out.xlsx"]
    let unusable := "precision = 1e300\nquantiles = 7".toUTF8.data.toList
    let directory : Directory := Directory.ofList [("other.ini", [])]
    run "histogram-mean" (Directory.toFiles (directory.put ["report.ini"] unusable)) arguments =
      run "histogram-mean" (Directory.toFiles (directory.put ["report.ini"] [0xff, 0x0a, 0x3d]))
        arguments := by
  intro arguments unusable directory
  let request : Request :=
    { Request.empty with
      counts := [0, 3]
      label := .value "x"
      precision := .value 2
      quantiles := [.value (.ofRank false (1022 * twoPow 52))]
      config := .value "report.ini"
      xlsx := .value "out.xlsx" }
  have hread : readArguments arguments = .ok request := by decide +kernel
  exact (run_ignores_contents "histogram-mean" hread ⟨by decide, by decide, by decide⟩).2
    directory ["report.ini"] unusable [0xff, 0x0a, 0x3d]

end Explicit

end BucketStats.Command
