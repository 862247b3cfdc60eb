import Mathlib.Logic.Relation
import StageScript.Proofs.Machine.Aside
import StageScript.Proofs.Source.Numeral

/-! # Animation files are loaded once
A file that is asked for is looked for by its name among those that have been loaded. A file goes by the path
that is stored in it or, if it stores none, by the path that it was asked for.
* **`Machine.Loads`** — what happens to a machine while files are loaded, and **`loads_run`** — runs are
  that;
* `AnimationOp.loaded?_of_prefix` — a file that is found is found ever after;
* **`AnimationOp.Answered`** — every file is what the host answered when it was asked for it;
* **`AnimationOp.load_again`** — a file that goes by the path that it was asked for is not asked for again;
* **`AnimationOp.not_all_found`** — another one is. -/

namespace StageScript

open Stepwise

/-! ## Loading -/

namespace Machine

/-- **One thing that happens to a machine**: an object loads a file, or something else. -/
inductive Loading (m : Machine) : Machine → Prop
  | load (run : Activation) : Loading m (AnimationOp.loadFile m run)
  | aside {m' : Machine} (other : m.Aside m') : Loading m m'

/-- **Any objects may load files** between the two machines, among whatever else. -/
abbrev Loads : Machine → Machine → Prop := Relation.ReflTransGen Loading

end Machine

theorem Exec.Aside.loads {α : Type} {x : Exec α} (h : x.Aside) : Along Machine.Loads x :=
  fun m => .single (.aside (h m))

theorem Opcode.loads_perform (op : Opcode) (p : Program) (run : Activation) (next : Position) :
    Along Machine.Loads (op.perform p run next) := by
  by_cases loads : op = .animation .load
  · subst loads
    exact fun m => .single (.load run)
  · exact (aside_perform p run next loads).loads

/-- **An instruction** at any place of any code. -/
theorem loads_step (p : Program) (run : Activation) (here : Position) :
    Along Machine.Loads (step p run here) :=
  Exec.Inherited.along.step (edits_fetch _ _ _).aside.loads (fun op next => op.loads_perform p run next)
    fun _ _ => (edits_walkOperands _ _ _ _ _ _).aside.loads

/-- **A run** of any body, whether it succeeds or fails. -/
theorem loads_run (p : Program) (activation : Activation) (entry : EntryPoint) :
    Along Machine.Loads (run p activation entry) :=
  along_run entry (fun _ => .single (.aside (.of_same rfl rfl rfl)))
    (fun _ => .single (.aside (.of_same rfl rfl rfl))) (loads_step p activation)

namespace AnimationOp

open Machine

/-! ## Files that are found -/

/-- A file goes by a path: the path stored in it is that one, up to case. -/
def GoesBy (file : AnimationFile) (path : String) : Prop := Text.sameName file.path.toList path.toList = true

/-- Two paths are one, up to case. -/
def SamePath (path other : String) : Prop := Text.sameName path.toList other.toList = true

instance (file : AnimationFile) (path : String) : Decidable (GoesBy file path) :=
  inferInstanceAs (Decidable (_ = true))

instance (path other : String) : Decidable (SamePath path other) :=
  inferInstanceAs (Decidable (_ = true))

variable {m m' : Machine} {s s' : Scene} {path other : String} {k : Nat} {file : AnimationFile}

theorem loaded?_congr (same : SamePath path other) : loaded? s path = loaded? s other := by
  unfold loaded?
  simp only [Text.sameName_congr same]

theorem loaded?_eq (s : Scene) (path : String) : loaded? s path =
    s.animations.toList.findIdx? fun file => Text.sameName file.path.toList path.toList := by
  rw [← List.findIdx?_toArray, Array.toArray_toList, loaded?]

/-- A file that is found stays the one that is found when others come behind. -/
theorem loaded?_of_prefix (more : s.animations.toList <+: s'.animations.toList)
    (known : loaded? s path = some k) : loaded? s' path = some k := by
  rw [loaded?_eq] at known ⊢
  exact more.findIdx?_eq_some known

theorem loaded?_push (missing : loaded? s path = none) (goes : GoesBy file path) :
    loaded? { s with animations := s.animations.push file } path = some s.animations.size := by
  unfold loaded? at missing ⊢
  rw [Array.findIdx?_push, missing, Option.none_or]
  exact if_pos goes

/-! ## Files stay -/

/-- **The files of the first machine are those that come first in the second**, and so are the calls of the
host, which is the same. -/
structure Retains (m m' : Machine) : Prop where
  files : m.scene.animations.toList <+: m'.scene.animations.toList
  host : m'.host = m.host
  history : m.history.toList <+: m'.history.toList

theorem Retains.refl (m : Machine) : Retains m m := ⟨List.prefix_rfl, rfl, List.prefix_rfl⟩

theorem Retains.trans {m'' : Machine} (h : Retains m m') (h' : Retains m' m'') : Retains m m'' :=
  ⟨h.files.trans h'.files, h'.host.trans h.host, h.history.trans h'.history⟩

theorem Retains.of_aside (h : m.Aside m') : Retains m m' :=
  ⟨h.files ▸ List.prefix_rfl, h.host, h.history⟩

/-- **What asking for a file does**, in each case. -/
inductive Obtains (m : Machine) (path : String) : Option Nat × Machine → Prop
  /-- A file is found by the path. -/
  | found {k : Nat} (known : loaded? m.scene path = some k) : Obtains m path (some k, m)
  /-- The host is asked and has a file. -/
  | loaded {file : AnimationFile} (missing : loaded? m.scene path = none)
      (answered : m.host.animation m.history path = some file) :
      Obtains m path (some m.scene.animations.size, (m.call (.loadAnimation path)).modifyScene fun s =>
        { s with animations := s.animations.push (named file path) })
  /-- The host is asked and has none. -/
  | missing (missing : loaded? m.scene path = none) (unanswered : m.host.animation m.history path = none) :
      Obtains m path (none, m.call (.loadAnimation path))

theorem obtains (m : Machine) (path : String) : Obtains m path (obtain m path) := by
  unfold obtain
  cases known : loaded? m.scene path with
  | some k => exact .found known
  | none =>
    dsimp only
    cases answered : m.host.animation m.history path with
    | some file => exact .loaded known answered
    | none => exact .missing known answered

theorem Obtains.retains {answer : Option Nat × Machine} (h : Obtains m path answer) : Retains m answer.2 := by
  have called := Retains.of_aside (aside_call m (.loadAnimation path))
  cases h with
  | found => exact .refl m
  | loaded _ _ =>
    refine called.trans ⟨?_, rfl, List.prefix_rfl⟩
    exact (Array.toList_push ..).symm ▸ List.prefix_append ..
  | missing => exact called

/-- Gives the type of a running object the file of a number. -/
def assign (m : Machine) (run : Activation) (k : Nat) : Machine :=
  m.modifyType (m.objectType run.object) fun t => { t with animation := some k }

theorem loadFile_of_some {run : Activation} (got : obtain m m.scriptText = (some k, m')) :
    loadFile m run = assign m' run k := by
  rw [loadFile, got]
  rfl

theorem loadFile_of_none {run : Activation} (got : obtain m m.scriptText = (none, m')) :
    loadFile m run = m' := by
  rw [loadFile, got]

theorem retains_assign (m : Machine) (run : Activation) (k : Nat) : Retains m (assign m run k) :=
  ⟨List.prefix_rfl, rfl, List.prefix_rfl⟩

theorem retains_loadFile (m : Machine) (run : Activation) : Retains m (loadFile m run) := by
  have asked := (obtains m m.scriptText).retains
  rcases got : obtain m m.scriptText with ⟨_ | k, m'⟩ <;> rw [got] at asked
  · rw [loadFile_of_none got]
    exact asked
  · rw [loadFile_of_some got]
    exact asked.trans (retains_assign m' run k)

/-- **Files stay** and the host does, whatever is loaded. -/
theorem retains_of_loads (h : m.Loads m') : Retains m m' := by
  induction h with
  | refl => exact .refl m
  | tail _ one ih =>
    cases one with
    | load run => exact ih.trans (retains_loadFile _ run)
    | aside other => exact ih.trans (.of_aside other)

/-! ## Where files come from -/

/-- **The host has a file by a path**, has been asked for it, and this is it. -/
structure Came (answer : String → Option AnimationFile) (m : Machine) (path : String) (file : AnimationFile) :
    Prop where
  answered : ∃ found, answer path = some found ∧ file = named found path
  asked : .loadAnimation path ∈ m.history

/-- **Every file** is one that the host has been asked for. -/
def Answered (answer : String → Option AnimationFile) (m : Machine) : Prop :=
  ∀ file ∈ m.scene.animations, ∃ path, Came answer m path file

variable {answer : String → Option AnimationFile}

theorem Came.retains (h : Came answer m path file) (more : Retains m m') : Came answer m' path file :=
  ⟨h.answered, Array.mem_toList_iff.1 (more.history.subset (Array.mem_toList_iff.2 h.asked))⟩

/-- Where no file is added, the files come from where they came. -/
theorem Answered.retains (h : Answered answer m) (more : Retains m m')
    (same : m'.scene.animations = m.scene.animations) : Answered answer m' := by
  intro file member
  obtain ⟨path, came⟩ := h file (same ▸ member)
  exact ⟨path, came.retains more⟩

theorem Answered.obtains {got : Option Nat × Machine} (h : Answered answer m)
    (repeats : m.host.animation m.history path = answer path) (obtains : Obtains m path got) :
    Answered answer got.2 := by
  have more := obtains.retains
  cases obtains with
  | found => exact h
  | @loaded found _ answered =>
    intro file member
    rcases Array.mem_push.1 member with before | rfl
    · obtain ⟨path, came⟩ := h file before
      exact ⟨path, came.retains more⟩
    · exact ⟨path, ⟨found, repeats ▸ answered, rfl⟩, Array.mem_push_self⟩
  | missing => exact h.retains more rfl

/-- **Files come from the host** and from nowhere else, if it answers each path the same every time. -/
theorem Answered.loads (h : Answered answer m)
    (repeats : ∀ history path, m.host.animation history path = answer path) (loads : m.Loads m') :
    Answered answer m' := by
  induction loads with
  | refl => exact h
  | @tail m' m'' before one ih =>
    have host := (retains_of_loads before).host
    cases one with
    | aside other => exact ih.retains (.of_aside other) other.files
    | load run =>
      have asked := ih.obtains (by rw [host, repeats]) (AnimationOp.obtains m' m'.scriptText)
      rcases got : obtain m' m'.scriptText with ⟨_ | k, left⟩ <;> rw [got] at asked
      · rw [loadFile_of_none got]
        exact asked
      · rw [loadFile_of_some got]
        exact asked.retains (retains_assign left run k) rfl

/-! ## Files that are asked for again -/

/-- A file that was obtained is there, and it is found from then on if it goes by the path. -/
theorem loaded?_of_obtain (got : obtain m path = (some k, m')) (here : m'.scene.animations[k]? = some file)
    (own : GoesBy file path) : loaded? m'.scene path = some k := by
  have obtains := got ▸ obtains m path
  generalize result : (some k, m') = answer at obtains
  cases obtains with
  | found known =>
    obtain ⟨number, rfl⟩ := Prod.mk.inj result
    rwa [number]
  | @loaded answered missing =>
    obtain ⟨first, rfl⟩ := Prod.mk.inj result
    obtain rfl := Option.some.inj first
    have same : named answered path = file := by
      simpa [Machine.modifyScene, Machine.call] using here
    exact loaded?_push missing (same ▸ own)
  | missing => cases (Prod.mk.inj result).1

/-- **A file is asked for once.** Let any objects load files behind the last time that all were forgotten,
and let the host answer each path the same every time. If a file that goes by the path is obtained, its number
is given to the type of the object, and whenever that path comes up again, in whatever case, that number is
given to the type of the object then, and nothing else happens. The file of that number is what the host
answered for some path, which is this one if no file that the host has by another path goes by it. -/
theorem load_again {m₀ m₁ m₁' m₂ : Machine} {run₁ run₂ : Activation}
    (cleared : m₀.scene.animations = #[])
    (repeats : ∀ history path, m₀.host.animation history path = answer path)
    (before : m₀.Loads m₁) (got : obtain m₁ m₁.scriptText = (some k, m₁'))
    (here : m₁'.scene.animations[k]? = some file) (own : GoesBy file m₁.scriptText)
    (between : (perform run₁ .load m₁).2.Loads m₂) (same : SamePath m₂.scriptText m₁.scriptText) :
    perform run₁ .load m₁ = (.ok (), assign m₁' run₁ k) ∧
      perform run₂ .load m₂ = (.ok (), assign m₂ run₂ k) ∧ m₂.scene.animations[k]? = some file ∧
      ∃ path, Came answer m₁' path file ∧
        ((∀ other found, answer other = some found → GoesBy (named found other) m₁.scriptText →
          SamePath other m₁.scriptText) → SamePath path m₁.scriptText) := by
  have first : perform run₁ .load m₁ = (.ok (), assign m₁' run₁ k) :=
    congrArg (Prod.mk _) (loadFile_of_some got)
  -- all that the second machine is compared with is there when the file has been assigned
  rw [first] at between
  have more := (retains_assign m₁' run₁ k).trans (retains_of_loads between)
  refine ⟨first, ?_, ?_, ?_⟩
  · have found : loaded? m₂.scene m₂.scriptText = some k := by
      rw [loaded?_congr same]
      exact loaded?_of_prefix more.files (loaded?_of_obtain got here own)
    refine congrArg (Prod.mk _) (loadFile_of_some ?_)
    rw [obtain, found]
  · rw [← Array.getElem?_toList] at here ⊢
    obtain ⟨others, files⟩ := more.files
    rw [← files, List.getElem?_append_left (List.getElem?_eq_some_iff.1 here).1]
    exact here
  · -- there are no files at first, and from then on they come from the host
    have empty : Answered answer m₀ := by
      intro file member
      rw [cleared] at member
      exact absurd member (Array.not_mem_empty file)
    have host := (retains_of_loads before).host
    have asked := (empty.loads repeats before).obtains (by rw [host, repeats]) (obtains m₁ m₁.scriptText)
    rw [got] at asked
    obtain ⟨path, came⟩ := asked file (Array.mem_of_getElem? here)
    refine ⟨path, came, fun only => ?_⟩
    obtain ⟨found, answered, named⟩ := came.answered
    exact only path found answered (named ▸ own)

/-- A host that has a single file, in which it may store a path. -/
def singleFile (path stored : String) : Host where
  animation _ asked := if asked = path then some { path := stored } else none

/-- A machine that is about to load a file. -/
def aboutToLoad (host : Host) (path : String) : Machine where
  scriptText := path
  random := .ofSeed 1
  host

/-- A machine that is about to load a file that stores no path. -/
def ringLoader : Machine := aboutToLoad (singleFile "ring.ani" "") "ring.ani"

/-- The same machine with the path in capitals, when the first object has loaded the file. -/
def ringLoaded : Machine :=
  { assign (obtain ringLoader "ring.ani").2 ⟨0, .main⟩ 0 with scriptText := "RING.ANI" }

/-- The second object gets the same file, which the host is not asked for. -/
theorem load_again_capital : (obtain ringLoader "ring.ani").1 = some 0 ∧
    perform ⟨1, .main⟩ .load ringLoaded = (.ok (), assign ringLoaded ⟨1, .main⟩ 0) ∧
      ringLoaded.history = #[.loadAnimation "ring.ani"] ∧
      ringLoaded.scene.animations[0]? = some { path := "ring.ani" } := by
  have got : obtain ringLoader ringLoader.scriptText = (some 0, (obtain ringLoader "ring.ani").2) :=
    Prod.ext (show (obtain ringLoader "ring.ani").1 = some 0 by decide +kernel) rfl
  have here : (obtain ringLoader "ring.ani").2.scene.animations[0]? = some { path := "ring.ani" } := by
    decide +kernel
  have between : (perform ⟨0, .main⟩ .load ringLoader).2.Loads ringLoaded := by
    rw [show perform ⟨0, .main⟩ .load ringLoader = (.ok (), _) from
      congrArg (Prod.mk _) (loadFile_of_some got)]
    exact .single (.aside (.of_same rfl rfl rfl))
  obtain ⟨-, again, still, -⟩ : _ ∧ perform ⟨1, .main⟩ .load ringLoaded = _ ∧ _ ∧ _ :=
    load_again rfl (fun _ _ => rfl) .refl got here (by decide +kernel) between (by decide +kernel)
  exact ⟨congrArg Prod.fst got, again, by decide +kernel, still⟩

/-- **A file that stores another path is asked for again**, and that path finds a file that the host has by
another one. -/
theorem not_all_found :
    (¬ ∀ (answer : String → Option AnimationFile) (m₀ m₁ m₂ : Machine) (run₁ run₂ : Activation) (k : Nat),
      m₀.scene.animations = #[] → (∀ history path, m₀.host.animation history path = answer path) →
      m₀.Loads m₁ → (obtain m₁ m₁.scriptText).1 = some k → (perform run₁ .load m₁).2.Loads m₂ →
      SamePath m₂.scriptText m₁.scriptText → (perform run₂ .load m₂).2.history = m₂.history) ∧
    ¬ ∀ (answer : String → Option AnimationFile) (m₀ m₁ : Machine) (k : Nat),
      m₀.scene.animations = #[] → (∀ history path, m₀.host.animation history path = answer path) →
      m₀.Loads m₁ → (obtain m₁ m₁.scriptText).1 = some k →
      ∃ path found, SamePath path m₁.scriptText ∧ answer path = some found ∧
        (obtain m₁ m₁.scriptText).2.scene.animations[k]? = some (named found path) := by
  let host := singleFile "ring.ani" "box.ani"
  let m := aboutToLoad host "ring.ani"
  constructor
  · intro all
    have same := all (host.animation #[]) m m (loadFile m ⟨0, .main⟩) ⟨0, .main⟩ ⟨0, .main⟩ 0 rfl (fun _ _ => rfl)
      .refl (by decide +kernel) .refl (by decide +kernel)
    have sizes := congrArg Array.size same
    revert sizes
    decide +kernel
  · intro all
    have loads : m.Loads { loadFile m ⟨0, .main⟩ with scriptText := "box.ani" } :=
      .tail (.single (.load _)) (.aside (.of_same rfl rfl rfl))
    obtain ⟨path, found, same, answered, -⟩ := all (host.animation #[]) m _ 0 rfl (fun _ _ => rfl) loads
      (by decide +kernel)
    have asked : path = "ring.ani" := by
      refine Decidable.byContradiction fun other => ?_
      have none : host.animation #[] path = none := if_neg other
      rw [none] at answered
      cases answered
    subst asked
    revert same
    decide +kernel

end AnimationOp

end StageScript
