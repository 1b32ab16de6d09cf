import Mathlib.Data.List.Sort
import Mathlib.Data.String.Basic
import SpiceHarvester.Core
import SpiceHarvester.Interleaving.Log
import SpiceHarvester.Interleaving.Triple

/-!
# Migrations

`migrate` of `pkg/db` runs the scripts of a directory that are not yet recorded, and keeps
in the one row of `schema_migrations` the version of the last of them, with a flag that
is set while a script runs. Each statement may fail, before or after its effect, and a
script also in the middle. Each start of the service runs `migrate` with its own directory,
to the end or up to any point, and later directories have the scripts of the earlier ones.

The scripts that have been started are at any time the first ones of the directory, each
started once. A start that returns without an error has recorded the last of them, and a
script that was started and not recorded stops all later starts (`migrate_once`).
-/

set_option autoImplicit false

namespace SpiceHarvester

open Interleaving

namespace Migrations

/-! ## Directories -/

/-- An entry of the directory. -/
structure File where
  name : String
  regular : Bool
  data : String
  deriving DecidableEq

/-- The class `\w`. -/
def isWord (c : Char) : Bool := c.isAlphanum || c = '_'

/-- The text between the first point and the ending `.sql`, the group `(.+)`. -/
def operation (text : List Char) : Option String :=
  if ".sql".toList <:+ text ∧ 4 < text.length ∧ '\n' ∉ text then
    some (String.ofList (text.take (text.length - 4)))
  else none

/-- `^(\d+)_(\w+)\.(.+)\.sql$`, by its first and its last group. -/
def findSubmatch (name : String) : Option (List Char × String) :=
  let digits := name.toList.takeWhile Char.isDigit
  match name.toList.dropWhile Char.isDigit with
  | '_' :: title =>
      match title.dropWhile isWord with
      | '.' :: text =>
          if digits = [] ∨ title.takeWhile isWord = [] then none
          else (operation text).map fun op => (digits, op)
      | _ => none
  | _ => none

/-- `strconv.Atoi` of digits, without its error. -/
def atoi (digits : List Char) : ℕ :=
  min ((parseDecimal.parseDigits digits).getD 0) (2 ^ 63 - 1)

/-- The entries in the order of their names. -/
def sortNames (files : List File) : List File :=
  files.insertionSort fun f g => f.name ≤ g.name

/-- The version of a script. -/
def File.version (file : File) : ℕ :=
  match findSubmatch file.name with
  | some (digits, _) => atoi digits
  | none => 0

/-- An up-script. -/
def File.up (file : File) : Bool :=
  file.regular && (findSubmatch file.name).any fun found => found.2 = "up"

/-- A directory with one up-script for each version, whose names sort in the order of the
versions. -/
structure Directory where
  files : List File
  named : ∀ file ∈ files, file.regular → (findSubmatch file.name).isSome
  versions : ((sortNames files).filter File.up).map File.version =
    List.range' 1 ((sortNames files).filter File.up).length

/-- The up-scripts in their order. -/
def Directory.ups (d : Directory) : List File := (sortNames d.files).filter File.up

def Directory.empty : Directory := ⟨[], fun _ none => (nomatch none), rfl⟩

/-- The later directory has the scripts of the earlier one. -/
def Directory.Grows (d d' : Directory) : Prop := ∀ file ∈ d.ups, file ∈ d'.ups

/-! ## Statements -/

/-- What `migrate` calls. -/
inductive Call where
  | createTable
  | select
  | insert (version : ℕ) (dirty : Bool)
  | update (dirty : Bool) (version : ℕ)
  | script (file : File)

@[reducible] def Call.Val : Call → Type
  | .select => ℕ × Bool
  | _ => Unit

/-- The table of the migrations, and the scripts that have been started and those that have
come to their end, in their order. -/
structure Database where
  table : Option (List (ℕ × Bool))
  started : List File
  completed : List File

def Database.empty : Database := ⟨none, [], []⟩

/-- How a statement goes. A script may end in the middle. -/
inductive Failure where
  | none
  | refused
  | broken
  | lost

/-- What a statement answers and does. Of several rows, `limit 1` returns any. -/
def Call.run (choice : ℕ) : (op : Call) → Database → Except Err op.Val × Database
  | .createTable, db => (.ok (), { db with table := some (db.table.getD []) })
  | .select, db =>
      match db.table with
      | none => (.error .failed, db)
      | some rows =>
          match rows[choice % rows.length]? with
          | none => (.error .noRows, db)
          | some row => (.ok row, db)
  | .insert version dirty, db =>
      match db.table with
      | none => (.error .failed, db)
      | some rows => (.ok (), { db with table := some (rows ++ [(version, dirty)]) })
  | .update dirty version, db =>
      match db.table with
      | none => (.error .failed, db)
      | some rows => (.ok (), { db with table := some (rows.map fun _ => (version, dirty)) })
  | .script file, db =>
      (.ok (), { db with started := db.started ++ [file], completed := db.completed ++ [file] })

/-- The part of a script that has run. -/
def Call.halfway (op : Call) (db : Database) : Database :=
  match op with
  | .script file => { db with started := db.started ++ [file] }
  | _ => db

def Call.runUnder (failure : Failure) (choice : ℕ) (op : Call) (db : Database) :
    Except Err op.Val × Database :=
  match failure with
  | .none => op.run choice db
  | .refused => (.error .failed, db)
  | .broken => (.error .failed, op.halfway db)
  | .lost => (.error .failed, (op.run choice db).2)

/-- A statement, however it goes. -/
def Call.Does (op : Call) (db : Database) (answer : Except Err op.Val) (db' : Database) : Prop :=
  ∃ failure choice, op.runUnder failure choice db = (answer, db')

/-! ## `migrate` -/

/-- A function that runs the migrations. -/
abbrev Action (α : Type) := Prog Call Call.Val Err α

def perform (op : Call) : Action op.Val := Prog.query op

/-- The statement that sets the flag. -/
def setDirty (version fVersion : ℕ) : Action Unit :=
  if version = 0 then perform (.insert fVersion true) else perform (.update true fVersion)

/-- The statements for one script. -/
def apply (version fVersion : ℕ) (file : File) : Action Unit := do
  setDirty version fVersion
  perform (.script file)
  perform (.update false fVersion)

/-- The loop over the files. -/
def applyAll : ℕ → List File → Action Unit
  | _, [] => return ()
  | version, file :: rest =>
      if ¬ file.regular then applyAll version rest
      else match findSubmatch file.name with
        | none => Prog.fail (.invalid ("invalid filemame " ++ file.name))
        | some (digits, op) =>
            let fVersion := atoi digits
            if fVersion ≤ version then applyAll version rest
            else if op ≠ "up" then applyAll version rest
            else if fVersion ≠ version + 1 then
              Prog.fail (.invalid ("invalid version " ++ toString fVersion ++ ", expected " ++
                toString (version + 1)))
            else do
              apply version fVersion file
              applyAll fVersion rest

/-- `migrate`. -/
def migrate (dir : List File) : Action Unit := do
  perform .createTable
  match ← (perform .select).attempt with
  | .error .noRows => applyAll 0 (sortNames dir)
  | .error error => Prog.fail error
  | .ok (version, dirty) =>
      if dirty then Prog.fail (.invalid "database migration is dirty")
      else applyAll version (sortNames dir)

/-! ## Starts -/

/-- The directory of the latest start, and the database. -/
structure Deployed where
  dir : Directory
  db : Database

/-- One start after the other, each with a directory that has grown; it may be stopped at
any point. -/
def system : System Unit Call Call.Val Err Unit Deployed where
  spawn _ s program s' :=
    ∃ dir, s.dir.Grows dir ∧ program = migrate dir.files ∧ s' = ⟨dir, s.db⟩
  exec _ op s answer s' := op.Does s.db answer s'.db ∧ s'.dir = s.dir
  retire _ _ s s' := s' = s
  crash s s' := s' = s

/-- The starts of a service on an empty database. -/
abbrev Starts : Interleaving.Config Unit Call Call.Val Err Unit Deployed → Prop :=
  system.Reachable (.idle ⟨.empty, .empty⟩)

/-! ## The scripts of a directory -/

section Ups

variable {d d' : Directory}

/-- The script of a place has the next version. -/
theorem Directory.version_of_get {k : ℕ} {file : File} (at_ : d.ups[k]? = some file) :
    file.version = k + 1 := by
  have versions : d.ups.map File.version = List.range' 1 d.ups.length := d.versions
  have same := congrArg (fun versions => versions[k]?) versions
  obtain ⟨bound, _⟩ := List.getElem?_eq_some_iff.mp at_
  simp only [List.getElem?_map, at_, Option.map_some, List.getElem?_range' bound,
    Option.some.injEq] at same
  omega

theorem Directory.get_of_mem {file : File} (member : file ∈ d.ups) :
    d.ups[file.version - 1]? = some file := by
  obtain ⟨k, at_⟩ := List.mem_iff_getElem?.mp member
  rw [version_of_get at_]
  exact at_

/-- The scripts of the earlier directory are the first ones of the later. -/
theorem Directory.Grows.prefix (grows : d.Grows d') : d.ups <+: d'.ups := by
  rw [List.prefix_iff_getElem?]
  intro k bound
  have member := List.getElem_mem bound
  have at_ := Directory.get_of_mem (grows _ member)
  rw [Directory.version_of_get (List.getElem?_eq_getElem bound)] at at_
  exact at_

theorem Directory.Grows.take (grows : d.Grows d') {k : ℕ} (bound : k ≤ d.ups.length) :
    d'.ups.take k = d.ups.take k := by
  obtain ⟨more, same⟩ := grows.prefix
  rw [← same, List.take_append_of_le_length bound]

end Ups

/-! ## What is recorded -/

/-- The rows after `k` scripts. -/
def recorded (k : ℕ) : List (ℕ × Bool) := if k = 0 then [] else [(k, false)]

/-- The rows of the table, and how many scripts have been started and completed. -/
structure Stage (rows : List (ℕ × Bool)) (started completed : ℕ) (s : Deployed) : Prop where
  table : s.db.table = some rows
  started : s.db.started = s.dir.ups.take started
  completed : s.db.completed = s.dir.ups.take completed

/-- All scripts that have been started are recorded. -/
abbrev Clean (k : ℕ) : Deployed → Prop := Stage (recorded k) k k

/-- The next script is marked, and has been run so far. -/
abbrev Marked (k started completed : ℕ) : Deployed → Prop := Stage [(k + 1, true)] started completed

/-- What holds at any time. -/
inductive Sound (s : Deployed) : Prop where
  | fresh (table : s.db.table = none) (started : s.db.started = []) (completed : s.db.completed = [])
  | clean {k : ℕ} (bound : k ≤ s.dir.ups.length) (stage : Clean k s)
  | marked {k started completed : ℕ} (bound : k < s.dir.ups.length)
      (steps : k ≤ completed ∧ completed ≤ started ∧ started ≤ k + 1)
      (stage : Marked k started completed s)

/-- When `migrate` calls a statement. -/
def Call.may (s : Deployed) : Call → Prop
  | .createTable | .select => True
  | .insert version dirty => version = 1 ∧ dirty = true ∧ 0 < s.dir.ups.length ∧ Clean 0 s
  | .update true version => ∃ k, version = k + 1 ∧ k ≠ 0 ∧ k < s.dir.ups.length ∧ Clean k s
  | .update false version =>
      ∃ k, version = k + 1 ∧ k < s.dir.ups.length ∧ Marked k (k + 1) (k + 1) s
  | .script file => ∃ k, s.dir.ups[k]? = some file ∧ Marked k k k s

/-- A start runs alone. -/
def starts : Contract system where
  rely _ s s' := s' = s
  inv s := Sound s
  pre _ op s := op.may s
  post _ result s := result = .ok () → Clean s.dir.ups.length s

theorem starts_undisturbed : starts.Undisturbed := fun _ _ _ => Iff.rfl

section Steps

variable {s s' : Deployed} {k : ℕ}

theorem take_succ_of_get {d : Directory} {file : File} (at_ : d.ups[k]? = some file) :
    d.ups.take (k + 1) = d.ups.take k ++ [file] := by
  rw [List.take_add_one, at_]
  rfl

theorem Stage.congr {rows : List (ℕ × Bool)} {started completed : ℕ}
    (stage : Stage rows started completed s) (dir : s'.dir = s.dir) (db : s'.db = s.db) :
    Stage rows started completed s' := by
  obtain ⟨table, started, completed⟩ := stage
  exact ⟨db ▸ table, db ▸ dir ▸ started, db ▸ dir ▸ completed⟩

/-- The state after a statement that has taken effect. -/
def Call.After (op : Call) (choice : ℕ) (s s' : Deployed) : Prop :=
  s'.dir = s.dir ∧ s'.db = (op.run choice s.db).2

variable {choice : ℕ} {file : File}

theorem Clean.insert (clean : Clean 0 s) (after : (Call.insert 1 true).After choice s s') :
    Marked 0 0 0 s' := by
  obtain ⟨dir, db⟩ := after
  simp only [Call.run, clean.table] at db
  exact ⟨by rw [db]; rfl, by rw [db, dir]; exact clean.started,
    by rw [db, dir]; exact clean.completed⟩

theorem Clean.update (clean : Clean k s) (later : k ≠ 0)
    (after : (Call.update true (k + 1)).After choice s s') : Marked k k k s' := by
  obtain ⟨dir, db⟩ := after
  simp only [Call.run, clean.table, recorded, if_neg later] at db
  exact ⟨by rw [db]; rfl, by rw [db, dir]; exact clean.started,
    by rw [db, dir]; exact clean.completed⟩

theorem Marked.halfway (marked : Marked k k k s) (at_ : s.dir.ups[k]? = some file)
    (dir : s'.dir = s.dir) (db : s'.db = (Call.script file).halfway s.db) :
    Marked k (k + 1) k s' where
  table := by rw [db]; exact marked.table
  started := by
    rw [db, dir, take_succ_of_get at_, ← marked.started]
    rfl
  completed := by rw [db, dir]; exact marked.completed

theorem Marked.script (marked : Marked k k k s) (at_ : s.dir.ups[k]? = some file)
    (after : (Call.script file).After choice s s') : Marked k (k + 1) (k + 1) s' := by
  obtain ⟨dir, db⟩ := after
  refine ⟨by rw [db]; exact marked.table, ?_, ?_⟩
  · rw [db, dir, take_succ_of_get at_, ← marked.started]
    rfl
  · rw [db, dir, take_succ_of_get at_, ← marked.completed]
    rfl

theorem Marked.update (marked : Marked k (k + 1) (k + 1) s)
    (after : (Call.update false (k + 1)).After choice s s') : Clean (k + 1) s' := by
  obtain ⟨dir, db⟩ := after
  simp only [Call.run, marked.table] at db
  exact ⟨by rw [db]; rfl, by rw [db, dir]; exact marked.started,
    by rw [db, dir]; exact marked.completed⟩

theorem Sound.congr (sound : Sound s) (dir : s'.dir = s.dir) (db : s'.db = s.db) : Sound s' := by
  cases sound with
  | fresh table started completed => exact .fresh (db ▸ table) (db ▸ started) (db ▸ completed)
  | clean bound stage => exact .clean (dir ▸ bound) (stage.congr dir db)
  | marked bound steps stage => exact .marked (dir ▸ bound) steps (stage.congr dir db)

/-- The table is there, and nothing else has changed. -/
theorem Sound.createTable (sound : Sound s) (after : Call.createTable.After choice s s') :
    Sound s' ∧ s'.db.table ≠ none := by
  obtain ⟨dir, db⟩ := after
  refine ⟨?_, by rw [db]; simp [Call.run]⟩
  have same : ∀ {rows}, s.db.table = some rows → s'.db = s.db := by
    intro rows table
    rw [db]
    simp only [Call.run, table, Option.getD_some]
    rw [← table]
  cases sound with
  | fresh table started completed =>
      refine .clean (k := 0) (Nat.zero_le _) ⟨?_, ?_, ?_⟩
      · rw [db]
        simp [Call.run, table, recorded]
      · rw [db, List.take_zero]
        exact started
      · rw [db, List.take_zero]
        exact completed
  | clean bound stage => exact .clean (dir ▸ bound) (stage.congr dir (same stage.table))
  | marked bound steps stage =>
      exact .marked (dir ▸ bound) steps (stage.congr dir (same stage.table))

/-- A statement that takes effect where it may be called. -/
theorem Sound.after {op : Call} (sound : Sound s) (may : op.may s)
    (after : op.After choice s s') : Sound s' := by
  cases op with
  | createTable => exact (sound.createTable after).1
  | select =>
      refine sound.congr after.1 (after.2.trans ?_)
      simp only [Call.run]
      split
      · rfl
      · split <;> rfl
  | insert version dirty =>
      obtain ⟨rfl, rfl, bound, clean⟩ := may
      exact .marked (after.1 ▸ bound) (by omega) (Clean.insert clean after)
  | update dirty version =>
      cases dirty with
      | true =>
          obtain ⟨k, rfl, later, bound, clean⟩ := may
          exact .marked (after.1 ▸ bound) (by omega) (Clean.update clean later after)
      | false =>
          obtain ⟨k, rfl, bound, marked⟩ := may
          exact .clean (after.1 ▸ bound) (Marked.update marked after)
  | script file =>
      obtain ⟨k, at_, marked⟩ := may
      obtain ⟨bound, _⟩ := List.getElem?_eq_some_iff.mp at_
      exact .marked (after.1 ▸ bound) (by omega) (Marked.script marked at_ after)

/-- **A statement keeps what holds at any time**, however it goes. -/
theorem Sound.does {op : Call} {answer : Except Err op.Val} (sound : Sound s) (may : op.may s)
    (does : op.Does s.db answer s'.db) (dir : s'.dir = s.dir) : Sound s' := by
  obtain ⟨failure, choice, runs⟩ := does
  have db := congrArg Prod.snd runs
  cases failure with
  | none => exact sound.after may ⟨dir, db.symm⟩
  | refused => exact sound.congr dir db.symm
  | lost => exact sound.after may ⟨dir, db.symm⟩
  | broken =>
      cases op with
      | script file =>
          obtain ⟨k, at_, marked⟩ := may
          obtain ⟨bound, _⟩ := List.getElem?_eq_some_iff.mp at_
          exact .marked (dir ▸ bound) (by omega) (Marked.halfway marked at_ dir db.symm)
      | _ => exact sound.congr dir db.symm

/-- A statement that answers has taken effect. -/
theorem Call.Does.after {op : Call} {value : op.Val} (does : op.Does s.db (.ok value) s'.db)
    (dir : s'.dir = s.dir) :
    ∃ choice, op.After choice s s' ∧ (op.run choice s.db).1 = .ok value := by
  obtain ⟨failure, choice, runs⟩ := does
  cases failure with
  | none => exact ⟨choice, ⟨dir, (congrArg Prod.snd runs).symm⟩, congrArg Prod.fst runs⟩
  | refused => cases congrArg Prod.fst runs
  | broken => cases congrArg Prod.fst runs
  | lost => cases congrArg Prod.fst runs

end Steps

/-! ## A start -/

section Programs

variable {d : Directory} {k : ℕ}

theorem returns_call {op : Call} {P Q : Deployed → Prop} (may : ∀ {s}, P s → op.may s)
    (after : ∀ {s s' choice}, P s → op.After choice s s' → Q s') :
    starts.Returns () P (perform op) fun _ => Q := by
  refine .query starts_undisturbed (fun _ holds => may holds) ?_
  rintro s answer s' _ holds ⟨does, dir⟩
  obtain ⟨choice, took, _⟩ := does.after dir
  exact after holds took

/-- One script is marked, run and recorded. -/
theorem apply_returns {file : File} (at_ : d.ups[k]? = some file) :
    starts.Returns () (fun s => s.dir = d ∧ Clean k s) (apply k (k + 1) file)
      fun _ s => s.dir = d ∧ Clean (k + 1) s := by
  obtain ⟨bound, _⟩ := List.getElem?_eq_some_iff.mp at_
  refine .bind starts_undisturbed (R := fun _ s => s.dir = d ∧ Marked k k k s) ?_ fun _ =>
    .bind starts_undisturbed (R := fun _ s => s.dir = d ∧ Marked k (k + 1) (k + 1) s)
      (returns_call ?_ ?_) fun _ => returns_call ?_ ?_
  · unfold setDirty
    split
    · rename_i first
      subst first
      refine returns_call ?_ ?_
      · rintro s ⟨rfl, clean⟩
        exact ⟨rfl, rfl, bound, clean⟩
      · rintro s s' choice ⟨same, clean⟩ after
        exact ⟨after.1.trans same, Clean.insert clean after⟩
    · rename_i later
      refine returns_call ?_ ?_
      · rintro s ⟨rfl, clean⟩
        exact ⟨k, rfl, later, bound, clean⟩
      · rintro s s' choice ⟨same, clean⟩ after
        exact ⟨after.1.trans same, Clean.update clean later after⟩
  · rintro s ⟨rfl, marked⟩
    exact ⟨k, at_, marked⟩
  · rintro s s' choice ⟨same, marked⟩ after
    exact ⟨after.1.trans same, Marked.script marked (same ▸ at_) after⟩
  · rintro s ⟨rfl, marked⟩
    exact ⟨k, rfl, bound, marked⟩
  · rintro s s' choice ⟨same, marked⟩ after
    exact ⟨after.1.trans same, Marked.update marked after⟩

/-- The scripts of the files that are newer than a version. -/
def pending (k : ℕ) (files : List File) : List File :=
  files.filter fun file => file.up && decide (k < file.version)

theorem pending_cons_of_not {file : File} {rest : List File}
    (skipped : ¬ (file.up ∧ k < file.version)) : pending k (file :: rest) = pending k rest := by
  refine List.filter_cons_of_neg ?_
  simpa only [Bool.and_eq_true, decide_eq_true_eq] using skipped

/-- After one script, those that follow it are pending. -/
theorem pending_next {file : File} {rest : List File}
    (left : pending k (file :: rest) = d.ups.drop k) (up : file.up) (new : k < file.version) :
    d.ups[k]? = some file ∧ pending (k + 1) rest = d.ups.drop (k + 1) := by
  have first : pending k (file :: rest) = file :: pending k rest := by
    refine List.filter_cons_of_pos ?_
    simpa only [Bool.and_eq_true, decide_eq_true_eq] using ⟨up, new⟩
  have at_ : d.ups[k]? = some file := by
    have head := congrArg List.head? left
    rw [first, List.head?_cons, List.head?_drop] at head
    exact head.symm
  have tail := congrArg List.tail left
  rw [first, List.tail_cons, List.tail_drop] at tail
  refine ⟨at_, ?_⟩
  rw [← tail, pending, pending]
  refine List.filter_congr fun other member => ?_
  by_cases older : k < other.version
  · have newer : other.up → k + 1 < other.version := by
      intro up'
      have member' : other ∈ pending k rest := List.mem_filter.mpr ⟨member, by simp [up', older]⟩
      rw [tail] at member'
      obtain ⟨i, at'⟩ := List.mem_iff_getElem?.mp member'
      rw [List.getElem?_drop] at at'
      have version := Directory.version_of_get at'
      omega
    by_cases up' : other.up
    · simp [up', newer up', older]
    · simp [up']
  · have older' : ¬ k + 1 < other.version := by omega
    simp [older, older']

theorem applyAll_returns {files : List File}
    (named : ∀ file ∈ files, file.regular → (findSubmatch file.name).isSome)
    (bound : k ≤ d.ups.length) (left : pending k files = d.ups.drop k) :
    starts.Returns () (fun s => s.dir = d ∧ Clean k s) (applyAll k files)
      fun _ s => s.dir = d ∧ Clean d.ups.length s := by
  induction files generalizing k with
  | nil =>
      have done : k = d.ups.length := by
        have none : d.ups.drop k = [] := left.symm
        rw [List.drop_eq_nil_iff] at none
        omega
      exact .pure starts_undisturbed fun holds => done ▸ holds
  | cons file rest ih =>
      have named' : ∀ other ∈ rest, other.regular → (findSubmatch other.name).isSome :=
        fun other member => named other (.tail _ member)
      have skip : ¬ (file.up ∧ k < file.version) →
          starts.Returns () (fun s => s.dir = d ∧ Clean k s) (applyAll k rest)
            fun _ s => s.dir = d ∧ Clean d.ups.length s := fun skipped =>
        ih named' bound ((pending_cons_of_not skipped).symm.trans left)
      rw [applyAll]
      split
      · rename_i irregular
        refine skip fun holds => irregular ?_
        exact (Bool.and_eq_true_iff.mp holds.1).1
      · rename_i regular
        obtain ⟨⟨digits, op⟩, found⟩ := Option.isSome_iff_exists.mp
          (named file List.mem_cons_self (by simpa using regular))
        have version : file.version = atoi digits := by rw [File.version, found]
        simp only [found]
        split
        · rename_i old
          exact skip fun holds => absurd holds.2 (by omega)
        split
        · rename_i down
          refine skip fun holds => down ?_
          have up := (Bool.and_eq_true_iff.mp holds.1).2
          rw [found, Option.any_some, decide_eq_true_eq] at up
          exact up
        · rename_i new up
          have isUp : file.up = true := by
            rw [File.up, found]
            simpa using ⟨by simpa using regular, by simpa using up⟩
          obtain ⟨at_, left'⟩ := pending_next left isUp (by omega)
          have next : atoi digits = k + 1 := version ▸ Directory.version_of_get at_
          obtain ⟨bound', _⟩ := List.getElem?_eq_some_iff.mp at_
          rw [if_neg (by omega), next]
          exact .bind starts_undisturbed (apply_returns at_) fun _ => ih named' bound' left'

theorem pending_sorted (d : Directory) (k : ℕ) : pending k (sortNames d.files) = d.ups.drop k := by
  have split : pending k (sortNames d.files) =
      (d.ups.take k ++ d.ups.drop k).filter fun file => decide (k < file.version) := by
    rw [List.take_append_drop, pending, Directory.ups, List.filter_filter]
    exact List.filter_congr fun _ _ => Bool.and_comm ..
  rw [split, List.filter_append]
  have old : ((d.ups.take k).filter fun file => decide (k < file.version)) = [] := by
    refine List.filter_eq_nil_iff.mpr fun file member => ?_
    obtain ⟨i, at_⟩ := List.mem_iff_getElem?.mp member
    rw [List.getElem?_take, Option.ite_none_right_eq_some] at at_
    have version := Directory.version_of_get at_.2
    simp only [decide_eq_true_eq]
    omega
  have new : ((d.ups.drop k).filter fun file => decide (k < file.version)) = d.ups.drop k := by
    refine List.filter_eq_self.mpr fun file member => ?_
    obtain ⟨i, at_⟩ := List.mem_iff_getElem?.mp member
    rw [List.getElem?_drop] at at_
    have version := Directory.version_of_get at_
    simp only [decide_eq_true_eq]
    omega
  rw [old, new, List.nil_append]

/-- What the query for the version finds. -/
def Read (result : Except Err (ℕ × Bool)) (s : Deployed) : Prop :=
  match result with
  | .ok (version, dirty) => dirty = true ∨ version ≤ s.dir.ups.length ∧ Clean version s
  | .error .noRows => Clean 0 s
  | .error _ => True

theorem Sound.read {s s' : Deployed} {answer : Except Err (ℕ × Bool)} (sound : Sound s)
    (does : Call.select.Does s.db answer s'.db) (dir : s'.dir = s.dir) : Read answer s' := by
  obtain ⟨failure, choice, runs⟩ := does
  cases failure with
  | none =>
      simp only [Call.runUnder, Call.run] at runs
      cases sound with
      | fresh table _ _ =>
          simp only [table, Prod.mk.injEq] at runs
          rw [← runs.1]
          trivial
      | @clean k bound stage =>
          simp only [stage.table, recorded] at runs
          by_cases first : k = 0
          · subst first
            simp only [if_true, List.getElem?_nil, Prod.mk.injEq] at runs
            obtain ⟨rfl, db⟩ := runs
            exact stage.congr dir db.symm
          · simp only [first, if_false, List.length_singleton, Nat.mod_one,
              List.getElem?_cons_zero, Prod.mk.injEq] at runs
            obtain ⟨rfl, db⟩ := runs
            exact .inr ⟨dir ▸ bound, stage.congr dir db.symm⟩
      | marked bound steps stage =>
          simp only [stage.table, List.length_singleton, Nat.mod_one, List.getElem?_cons_zero,
            Prod.mk.injEq] at runs
          rw [← runs.1]
          exact .inl rfl
  | refused | broken | lost =>
      have failed : answer = .error .failed := (congrArg Prod.fst runs).symm
      rw [failed]
      trivial

theorem migrate_returns (d : Directory) :
    starts.Returns () (fun s => s.dir = d) (migrate d.files)
      fun _ s => s.dir = d ∧ Clean d.ups.length s := by
  have alone : starts.Undisturbed := starts_undisturbed
  have named : ∀ file ∈ sortNames d.files, file.regular → (findSubmatch file.name).isSome :=
    fun file member => d.named file ((List.perm_insertionSort _ _).mem_iff.mp member)
  have applies : ∀ k, k ≤ d.ups.length → starts.Returns () (fun s => s.dir = d ∧ Clean k s)
      (applyAll k (sortNames d.files)) fun _ s => s.dir = d ∧ Clean d.ups.length s :=
    fun k bound => applyAll_returns named bound (pending_sorted d k)
  refine .bind alone (R := fun _ s => s.dir = d)
    (returns_call (fun _ => trivial) fun same after => after.1.trans same) fun _ => ?_
  refine Contract.Triple.attempt_bind alone.closed (R := fun result s => s.dir = d ∧ Read result s)
    (.query (alone.stable _) (fun _ => alone.stable _) (fun _ _ => trivial) ?_) fun result => ?_
  · rintro s answer s' sound same ⟨does, dir⟩
    exact ⟨dir.trans same, sound.read does dir⟩
  · match result with
    | .error .noRows => exact applies 0 (Nat.zero_le _)
    | .error .notFound => exact Contract.Returns.ret alone fun _ _ impossible => nomatch impossible
    | .error .failed => exact Contract.Returns.ret alone fun _ _ impossible => nomatch impossible
    | .error (.invalid _) => exact Contract.Returns.ret alone fun _ _ impossible => nomatch impossible
    | .ok (version, true) => exact Contract.Returns.ret alone fun _ _ impossible => nomatch impossible
    | .ok (version, false) =>
        rintro s sound ⟨rfl, dirty | ⟨bound, clean⟩⟩
        · cases dirty
        · exact applies version bound s sound ⟨rfl, clean⟩

end Programs

/-! ## All starts -/

/-- **Every start keeps to what holds at any time**, whatever happened before it. -/
theorem starts_sound : starts.Sound where
  toClosed := starts_undisturbed.closed
  exec := fun sound may does => ⟨sound.does may does.1 does.2, fun u other => absurd rfl other⟩
  spawn := by
    rintro t s program s' sound ⟨dir, grows, rfl, rfl⟩
    have sound' : Sound ⟨dir, s.db⟩ := by
      have longer := grows.prefix.length_le
      cases sound with
      | fresh table started completed => exact .fresh table started completed
      | clean bound stage =>
          exact .clean (bound.trans longer) ⟨stage.table,
            by rw [grows.take bound]; exact stage.started,
            by rw [grows.take bound]; exact stage.completed⟩
      | marked bound steps stage =>
          exact .marked (lt_of_lt_of_le bound longer) steps ⟨stage.table,
            by rw [grows.take (by omega)]; exact stage.started,
            by rw [grows.take (by omega)]; exact stage.completed⟩
    refine ⟨sound', fun u other => absurd rfl other, ?_⟩
    refine (migrate_returns dir _ sound' rfl).weaken fun result s' _ holds ok => ?_
    obtain ⟨same, clean⟩ := holds () ok
    rw [same]
    exact clean
  retire := by
    rintro t result s s' sound _ rfl
    exact ⟨sound, fun u other => absurd rfl other⟩
  crash := by
    rintro s s' sound rfl
    exact sound

/-- The script is recorded as completed. -/
def Database.Records (db : Database) (file : File) : Prop :=
  ∃ version dirty, db.table = some [(version, dirty)] ∧
    (file.version < version ∨ file.version = version ∧ dirty = false)

/-- A start over a database whose flag is set. -/
def refused (db : Database) : Contract system where
  rely _ s s' := s' = s
  inv s := s.db = db
  pre _ op _ := op = .createTable ∨ op = .select
  post _ result _ :=
    result = .error .failed ∨ result = .error (.invalid "database migration is dirty")

theorem refused_undisturbed {db : Database} : (refused db).Undisturbed := fun _ _ _ => Iff.rfl

theorem same_of_refused {db db' : Database} {version : ℕ} {op : Call} {answer : Except Err op.Val}
    (table : db.table = some [(version, true)]) (reads : op = .createTable ∨ op = .select)
    (does : op.Does db answer db') : db' = db := by
  obtain ⟨failure, choice, runs⟩ := does
  have same : (op.run choice db).2 = db := by
    rcases reads with rfl | rfl
    · simp only [Call.run, table, Option.getD_some]
      rw [← table]
    · simp only [Call.run, table, List.length_singleton, Nat.mod_one, List.getElem?_cons_zero]
  have whole : op.halfway db = db := by
    rcases reads with rfl | rfl <;> rfl
  have db'_eq : db' = (op.runUnder failure choice db).2 := (congrArg Prod.snd runs).symm
  rw [db'_eq]
  cases failure with
  | none => exact same
  | refused => rfl
  | broken => exact whole
  | lost => exact same

/-- A start over a set flag reads it, unless a statement fails. -/
theorem migrate_refused {db : Database} {version : ℕ} (table : db.table = some [(version, true)])
    (dir : List File) :
    (refused db).Triple () (fun _ => True) (migrate dir) ((refused db).post ()) := by
  have alone : (refused db).Undisturbed := refused_undisturbed
  refine .bind alone.closed (R := fun result _ => result = .ok () ∨ result = .error .failed)
    (.query (alone.stable _) (fun _ => alone.stable _) (fun _ _ => .inl rfl) ?_) (fun _ => ?_) ?_
  · rintro s answer s' _ _ ⟨⟨failure, choice, runs⟩, _⟩
    cases failure with
    | none => exact .inl (congrArg Prod.fst runs).symm
    | refused | broken | lost => exact .inr (congrArg Prod.fst runs).symm
  · refine .attempt_bind alone.closed
      (R := fun result _ => result = .ok (version, true) ∨ result = .error .failed)
      (.query (alone.stable _) (fun _ => alone.stable _) (fun _ _ => .inr rfl) ?_) fun result => ?_
    · rintro s answer s' same _ ⟨⟨failure, choice, runs⟩, _⟩
      cases failure with
      | none =>
          have read := congrArg Prod.fst runs
          simp only [Call.runUnder, Call.run, show s.db = db from same, table,
            List.length_singleton, Nat.mod_one, List.getElem?_cons_zero] at read
          exact .inl read.symm
      | refused | broken | lost => exact .inr (congrArg Prod.fst runs).symm
    · rintro s same (rfl | rfl)
      · exact fun _ _ _ => .inr rfl
      · exact fun _ _ _ => .inl rfl
  · rintro error s _ (impossible | failed)
    · cases impossible
    · cases failed
      exact .inl rfl

theorem refused_sound {db : Database} {version : ℕ} (table : db.table = some [(version, true)]) :
    (refused db).Sound where
  toClosed := refused_undisturbed.closed
  exec := by
    rintro t op s answer s' same reads ⟨does, _⟩
    rw [show s.db = db from same] at does
    exact ⟨same_of_refused table reads does, fun u other => absurd rfl other⟩
  spawn := by
    rintro t s program s' same ⟨dir, _, rfl, rfl⟩
    exact ⟨same, fun u other => absurd rfl other, migrate_refused table _ _ same trivial⟩
  retire := by
    rintro t result s s' same _ rfl
    exact ⟨same, fun u other => absurd rfl other⟩
  crash := by
    rintro s s' same rfl
    exact same

/-- A script that was started and is not recorded has left the flag set. -/
theorem Sound.dirty {s : Deployed} (sound : Sound s) {file : File} (started : file ∈ s.db.started)
    (unrecorded : ¬ s.db.Records file) : ∃ version, s.db.table = some [(version, true)] := by
  cases sound with
  | fresh _ none _ =>
      rw [none] at started
      cases started
  | @clean k bound stage =>
      rw [stage.started] at started
      obtain ⟨i, at_⟩ := List.mem_iff_getElem?.mp started
      rw [List.getElem?_take, Option.ite_none_right_eq_some] at at_
      obtain ⟨before, at_⟩ := at_
      have version := Directory.version_of_get at_
      have later : k ≠ 0 := by omega
      refine absurd ⟨k, false, ?_, ?_⟩ unrecorded
      · rw [stage.table, recorded, if_neg later]
      · rw [version]
        exact (Nat.lt_or_eq_of_le before).imp_right fun last => ⟨last, rfl⟩
  | @marked k _ _ _ _ stage => exact ⟨k + 1, stage.table⟩

/-- **Each script is run once, in its turn.** The scripts that were started are the first
ones of the directory. A start that returns has run all of them and recorded the last. A
script that was started and not recorded lets no later start begin another one. -/
theorem migrate_once {c : Interleaving.Config Unit Call Call.Val Err Unit Deployed}
    (run : Starts c) :
    c.state.db.started <+: c.state.dir.ups ∧
    c.state.db.started.map File.version = List.range' 1 c.state.db.started.length ∧
    (c.pool () = some (.ret (.ok ())) → c.state.db.started = c.state.dir.ups ∧
      c.state.db.completed = c.state.dir.ups ∧
      c.state.db.table = some (recorded c.state.dir.ups.length)) ∧
    (c.pool () = none → (∃ file ∈ c.state.db.started, ¬ c.state.db.Records file) →
      ∀ c', system.Reachable c c' → c'.state.db = c.state.db ∧
        ∀ result, c'.pool () = some (.ret result) → result = .error .failed ∨
          result = .error (.invalid "database migration is dirty")) := by
  have kept := starts_sound.reachable (.idle (s := ⟨.empty, .empty⟩) (.fresh rfl rfl rfl)) run
  have sound : Sound c.state := kept.inv
  have first : c.state.db.started <+: c.state.dir.ups := by
    cases sound with
    | fresh _ none _ => exact none ▸ List.nil_prefix
    | clean _ stage => exact stage.started ▸ List.take_prefix _ _
    | marked _ _ stage => exact stage.started ▸ List.take_prefix _ _
  refine ⟨first, ?_, fun ended => ?_, fun free ⟨file, started, unrecorded⟩ c' later => ?_⟩
  · obtain ⟨more, same⟩ := first
    have versions : c.state.dir.ups.map File.version = List.range' 1 c.state.dir.ups.length :=
      c.state.dir.versions
    rw [← same, List.map_append, List.length_append, ← List.range'_append] at versions
    exact List.append_inj_left versions (by rw [List.length_map, List.length_range'])
  · have clean := kept.post starts_sound ended rfl
    rw [clean.started, clean.completed, List.take_length]
    exact ⟨rfl, rfl, clean.table⟩
  · obtain ⟨version, table⟩ := sound.dirty started unrecorded
    have stuck := refused_sound table
    have idle : (refused c.state.db).Kept c := ⟨rfl, fun t program held => by
      rw [free] at held
      cases held⟩
    have kept' := stuck.reachable idle later
    exact ⟨kept'.inv, fun result ended => kept'.post stuck ended⟩

/-! ## A first start -/

namespace Shop

/-- The directory of the repository. -/
def directory : Directory where
  files := [⟨"0001_init.down.sql", true, "DROP SCHEMA payments;"⟩,
    ⟨"0001_init.up.sql", true, "CREATE SCHEMA payments;"⟩]
  named := by decide +kernel
  versions := by decide +kernel

/-- Every statement is answered. -/
def answered (op : Call) (s : Deployed) : Option (Except Err op.Val × Deployed) :=
  some ((op.run 0 s.db).1, ⟨s.dir, (op.run 0 s.db).2⟩)

/-- The first start returns. -/
theorem first_start : ∃ c, Starts c ∧ c.pool () = some (.ret (.ok ())) ∧
    c.state.dir.ups.length = 1 := by
  have found : ((migrate directory.files).eval answered ⟨directory, .empty⟩).map
      (fun done => decide (done.1 = .ok () ∧ done.2.dir.ups.length = 1)) = some true := by
    decide +kernel
  obtain ⟨⟨result, s⟩, ended, same⟩ := Option.map_eq_some_iff.mp found
  obtain ⟨rfl, one⟩ := of_decide_eq_true same
  have answers : ∀ (op : Call) (s : Deployed) (answer : Except Err op.Val) (s' : Deployed),
      answered op s = some (answer, s') → system.exec () op s answer s' := by
    rintro op s answer s' ran
    cases ran
    exact ⟨⟨.none, 0, rfl⟩, rfl⟩
  obtain ⟨log, runs⟩ := Alone.of_eval answers ended
  have grows : Directory.Grows .empty directory := fun _ none => (nomatch none)
  have start : system.Step (.idle ⟨.empty, .empty⟩) ⟨⟨directory, .empty⟩,
      Function.update (fun _ => none) () (some (migrate directory.files))⟩ :=
    .spawn rfl ⟨directory, grows, rfl, rfl⟩
  exact ⟨_, .head start (Alone.reachable runs (Function.update_self ..)), rfl, one⟩

/-- The first start has recorded the script. -/
theorem first_start_recorded : ∃ c, Starts c ∧ c.state.db.started.length = 1 ∧
    c.state.db.table = some [(1, false)] := by
  obtain ⟨c, run, ended, one⟩ := first_start
  obtain ⟨started, _, table⟩ := (migrate_once run).2.2.1 ended
  rw [one] at table
  exact ⟨c, run, started ▸ one, table⟩

end Shop

end Migrations

end SpiceHarvester
