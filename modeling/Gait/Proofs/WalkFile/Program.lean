import Gait.Files.Memory
import Gait.Proofs.WalkFile.Lines
import Gait.WalkFile.Load

/-!
# What reading makes of a program

A reading goes line by line, and what a line does depends on the region it stands in.
`Reading.Feeds` lists what one line can make of the program that is being built, and `feeds` says
that there is nothing else; facts about whole texts follow by induction on the lines.

`Program.Written.forward`: every motion function of a program that a walk file holds is forward.
-/

namespace Gait

/-- All motion functions of a program are forward. -/
def Program.Forward (p : Program) : Prop :=
  ∀ servo, ∀ f ∈ p.tracks.get servo, MotionFunction.Forward f

/-- The program is held by some walk file.  A path may be remembered with it. -/
def Program.Written (p : Program) : Prop :=
  ∃ text path, p = { (WalkFile.read text).program with path }

namespace WalkFile.Reading

/-! ## One line -/

/-- The tick that a line sets, if it sets one. -/
def tickSet? (r : Reading) (line : List Char) : Option Nat :=
  match r.region, keyValue? (content line) with
  | .info, some (key, value) => if String.ofList key = "Tick" then count? value else none
  | _, _ => none

/-- What a line can make of the program: describe it anew, or add a setup step, a main step or a
motion function. -/
inductive Feeds (r : Reading) (line : List Char) : Program → Prop
  | describes {p : Program} (tick : p.tick = (r.tickSet? line).getD r.program.tick)
    (setup : p.setup = r.program.setup) (main : p.main = r.program.main)
    (tracks : p.tracks = r.program.tracks) : Feeds r line p
  | addsSetup (unset : r.tickSet? line = none) (step : Step) :
    Feeds r line { r.program with setup := r.program.setup.push step }
  | addsMain (unset : r.tickSet? line = none) (step : Step) :
    Feeds r line { r.program with main := r.program.main.push step }
  | addsFunction (unset : r.tickSet? line = none) (servo : Fin servoCount) (f : MotionFunction)
    (forward : f.Forward) : Feeds r line (addFunction r.program servo f)

variable {r : Reading} {line : List Char}

theorem tickSet?_of_ne_info (elsewhere : r.region ≠ .info) : r.tickSet? line = none := by
  unfold tickSet?
  split
  · next info _ => exact (elsewhere info).elim
  · rfl

/-- A line that is no assignment sets nothing. -/
theorem tickSet?_of_keyValue?_eq_none (plain : keyValue? (content line) = none) :
    r.tickSet? line = none := by
  unfold tickSet?
  rw [plain]
  split
  · next assigned => cases assigned
  · rfl

theorem Feeds.unchanged (unset : r.tickSet? line = none) : r.Feeds line r.program :=
  .describes (by rw [unset]; rfl) rfl rfl rfl

theorem program_openRegion (n : Nat) (code : List Char) :
    (r.openRegion n code).program = r.program := by
  unfold openRegion
  split
  · rfl
  · rfl
  · rfl
  · rfl
  · split
    · rfl
    · split <;> rfl

theorem describe_keeps {p q : Program} {key value : List Char}
    (described : describe p key value = .ok q) :
    q.tick = (if String.ofList key = "Tick" then count? value else none).getD p.tick ∧
      q.setup = p.setup ∧ q.main = p.main ∧ q.tracks = p.tracks := by
  unfold describe at described
  split at described
  case h_6 tick =>
    rw [if_pos tick]
    split at described
    · next read =>
      cases described
      exact ⟨by rw [read]; rfl, rfl, rfl, rfl⟩
    · cases described
  case h_8 other _ =>
    cases described
    rw [if_neg other]
    exact ⟨rfl, rfl, rfl, rfl⟩
  case h_1 named | h_4 named =>
    rw [named, if_neg (by decide)]
    split at described
    · cases described
      exact ⟨rfl, rfl, rfl, rfl⟩
    · cases described
  case h_2 named | h_3 named | h_5 named | h_7 named =>
    cases described
    rw [named, if_neg (by decide)]
    exact ⟨rfl, rfl, rfl, rfl⟩

theorem count?_eq_none_of_describe {p : Program} {value : List Char} {reason : Reason}
    {key : List Char} (refused : describe p key value = .error reason) :
    (if String.ofList key = "Tick" then count? value else none) = none := by
  split
  · next tick =>
    cases read : count? value with
    | none => rfl
    | some tick' =>
        unfold describe at refused
        rw [tick] at refused
        simp only [read] at refused
        cases refused
  · rfl

theorem info_feeds (region : r.region = .info) (n : Nat) :
    r.Feeds line (r.feedRegion n (content line)).program := by
  unfold feedRegion
  rw [region]
  dsimp only
  split
  · next plain => exact .unchanged (tickSet?_of_keyValue?_eq_none plain)
  · next key value assigned =>
    have set : r.tickSet? line = if String.ofList key = "Tick" then count? value else none := by
      unfold tickSet?
      rw [region, assigned]
    split
    · next described =>
      obtain ⟨tick, setup, main, tracks⟩ := describe_keeps described
      exact .describes (set ▸ tick) setup main tracks
    · next refused => exact .unchanged (set.trans (count?_eq_none_of_describe refused))

theorem feedTrack_feeds (unset : r.tickSet? line = none) (n : Nat) (code : List Char)
    (servo : Option (Fin servoCount)) (pairing : Pairing) :
    r.Feeds line (r.feedTrack n code servo pairing).program := by
  unfold feedTrack
  split
  · split <;> exact .unchanged unset
  · exact .unchanged unset
  · dsimp only
    split
    · next paired => exact .addsFunction unset _ _ (readPair_forward _ _ _ paired)
    · exact .unchanged unset
    · exact .unchanged unset

theorem feedRegion_feeds (n : Nat) : r.Feeds line (r.feedRegion n (content line)).program := by
  by_cases info : r.region = .info
  · exact info_feeds info n
  · have unset : r.tickSet? line = none := tickSet?_of_ne_info info
    unfold feedRegion
    split
    · exact .unchanged unset
    · split
      · split
        · exact .describes (by rw [unset]; rfl) rfl rfl rfl
        · exact .unchanged unset
      · exact .unchanged unset
    · next region => exact (info region).elim
    · split
      · exact .addsSetup unset _
      · exact .unchanged unset
    · split
      · exact .addsMain unset _
      · exact .unchanged unset
    · exact feedTrack_feeds unset n _ _ _

theorem eq_of_closes {region : Region} {code : List Char} (close : closes region code = true) :
    code = "[end]".toList ∨ code = "/@".toList := by
  simp only [closes, Bool.or_eq_true, Bool.and_eq_true, beq_iff_eq] at close
  rw [← String.toList_ofList (l := code)]
  exact (close.imp_right And.right).imp (congrArg String.toList) (congrArg String.toList)

/-- What closes a region is no assignment. -/
theorem keyValue?_of_closes {region : Region} {code : List Char}
    (close : closes region code = true) : keyValue? code = none := by
  rcases eq_of_closes close with rfl | rfl <;> decide

/-- A line does one of these things to the program. -/
theorem feeds (r : Reading) (n : Nat) (line : List Char) :
    r.Feeds line (r.feed n line).program := by
  unfold feed
  dsimp only
  split
  · next empty =>
    refine .unchanged (tickSet?_of_keyValue?_eq_none ?_)
    rw [List.isEmpty_iff.1 empty]
    rfl
  · split
    · next outside =>
      rw [program_openRegion]
      exact .unchanged (tickSet?_of_ne_info (by rw [outside]; nofun))
    · split
      · next close => exact .unchanged (tickSet?_of_keyValue?_eq_none (keyValue?_of_closes close))
      · exact feedRegion_feeds n

/-! ## Whole texts -/

theorem get_addFunction (p : Program) (servo other : Fin servoCount) (f : MotionFunction) :
    (addFunction p servo f).tracks.get other =
      if servo = other then p.tracks.get servo ++ [f] else p.tracks.get other := by
  have get (tracks : Vector Track servoCount) : tracks.get other = tracks[other.val] := rfl
  rw [get, get, addFunction, Vector.getElem_set]
  simp only [Fin.ext_iff]

theorem Feeds.forward {p : Program} (feeds : r.Feeds line p) (forward : r.program.Forward) :
    p.Forward := by
  cases feeds with
  | describes _ _ _ tracks =>
      unfold Program.Forward
      rw [tracks]
      exact forward
  | addsSetup | addsMain => exact forward
  | addsFunction _ servo f here =>
      intro other g member
      rw [get_addFunction] at member
      split at member
      · rcases List.mem_append.1 member with old | new
        · exact forward servo g old
        · rwa [List.mem_singleton.1 new]
      · exact forward other g member

theorem feedAll_forward (forward : r.program.Forward) (n : Nat) (lines : List (List Char)) :
    (r.feedAll n lines).program.Forward := by
  induction lines generalizing r n with
  | nil => exact forward
  | cons line lines ih => exact ih ((r.feeds n line).forward forward) (n + 1)

end WalkFile.Reading

/-- Every motion function of a walk file is forward. -/
theorem Program.Written.forward {p : Program} (written : p.Written) : p.Forward := by
  obtain ⟨text, path, rfl⟩ := written
  refine WalkFile.Reading.feedAll_forward (r := {}) (fun servo f member => ?_) 1 _
  simp [Vector.get] at member

theorem WalkFile.read_ofList (text : List Char) :
    WalkFile.read (String.ofList text) = Reading.feedAll {} 1 (WalkFile.lines text) := by
  rw [read, String.toList_ofList]

theorem WalkFile.written_read (text : String) : (WalkFile.read text).program.Written :=
  ⟨text, (WalkFile.read text).program.path, rfl⟩

theorem WalkFile.run_load (files : FileTree) (path : String) :
    (WalkFile.load path : ReaderM FileTree _).run files =
      WalkFile.loaded path (files.readText path) := by
  rw [WalkFile.load_eq_map]
  rfl

theorem WalkFile.written_of_load {files : FileTree} {path : String} {reading : WalkFile.Reading}
    (loaded : (WalkFile.load path : ReaderM FileTree _).run files = .ok reading) :
    reading.program.Written := by
  rw [WalkFile.run_load] at loaded
  cases read : files.readText path with
  | error e =>
      rw [read] at loaded
      cases loaded
  | ok text =>
      rw [read] at loaded
      cases loaded
      exact ⟨text, some path, rfl⟩

end Gait
