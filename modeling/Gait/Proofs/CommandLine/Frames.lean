import Gait.CommandLine
import Gait.Proofs.CommandLine.Entries
import Gait.Proofs.WalkFile.Program
import Gait.Proofs.Wire.Accepting
import Gait.Proofs.Wire.Stream

/-!
# Printed frames and sent frames

`frames` prints what a simulated link shows for one pass of a program.  `pass_eq` says which entries
these are: one for each setup step and each main step, with the frames that the step has on a link
that accepts every byte.  The main statement reads the printed lines back and compares what they say
with what the ticks of any session put on such a link.
-/

namespace Gait

namespace Program

/-- The steps of one pass: the setup steps, then the main steps. -/
def steps (p : Program) : List Step := p.setup.toList ++ p.main.toList

variable {p : Program} {stop : Option Nat} {k n : Nat}

theorem length_steps (p : Program) : p.steps.length = p.setup.size + p.main.size := by
  rw [steps, List.length_append, Array.length_toList, Array.length_toList]

theorem scheduled?_of_lt (inPass : k < p.steps.length) : p.scheduled? k = p.steps[k]? := by
  rw [length_steps] at inPass
  unfold scheduled? steps
  by_cases inSetup : k < p.setup.size
  · rw [if_pos inSetup, List.getElem?_append_left (by simpa using inSetup), Array.getElem?_toList]
  · have inMain : k - p.setup.size < p.main.size := by omega
    rw [if_neg inSetup, Nat.mod_eq_of_lt inMain,
      List.getElem?_append_right (by simpa using inSetup), Array.getElem?_toList,
      Array.length_toList]

/-- No cycle ends within the first pass. -/
theorem length_steps_le (length : p.cycleLength? stop = some n) : p.steps.length ≤ n := by
  obtain ⟨passes, one, rfl⟩ := cycleLength?_eq_passes length
  have whole := Nat.le_mul_of_pos_right p.main.size one
  rw [length_steps]
  omega

end Program

namespace Session

variable {L : Type} [Link L]

/-- Up to the length of one pass, what is fired are the steps of the pass. -/
theorem firings_of_pass {σ : Session L} {name : String} {p : Program}
    (playing : σ.walker.Playing name p 0 none) (ops : List Operation)
    (undisturbed : ∀ e ∈ σ.history ops, e.1.disturbs name e.2 = false)
    (inPass : (firings (σ.history ops)).length ≤ p.steps.length) :
    firings (σ.history ops) = (p.steps.take (firings (σ.history ops)).length).map .step := by
  refine List.ext_getElem? fun i => ?_
  rw [List.getElem?_map]
  cases fired : (firings (σ.history ops))[i]? with
  | none =>
      have behind := List.getElem?_eq_none_iff.1 fired
      rw [List.getElem?_take_eq_none behind]
      rfl
  | some firing =>
      obtain ⟨inside, -⟩ := List.getElem?_eq_some_iff.1 fired
      have fires := firings_of_playing playing ops undisturbed i firing fired
      rw [Nat.zero_add] at fires
      rw [List.getElem?_take_of_lt inside]
      cases firing with
      | step step =>
          rw [← Program.scheduled?_of_lt (Nat.lt_of_lt_of_le inside inPass), fires.1]
          rfl
      | finish =>
          have whole := Program.length_steps_le fires
          omega

end Session

/-- Frames are recorded two bytes at a time. -/
theorem Link.Simulated.pairs_flatMap_bytes (commands : List Command) :
    pairs (commands.flatMap Command.bytes) =
      commands.map fun c => (c.frame.first, c.frame.second) := by
  induction commands with
  | nil => rfl
  | cons c commands ih =>
      rw [List.flatMap_cons, List.map_cons, ← ih]
      rfl

namespace CommandLine

open Link (Simulated Record Logged)

/-! ## Entries -/

namespace PassEntry

/-- The entry of a step over a link that accepts every byte. -/
def ofStep (step : Step) (index : Nat) : PassEntry := ⟨index, step, Simulated.pairs step.bytes⟩

/-- The entries of steps that are numbered from zero on. -/
def ofSteps (steps : List Step) : List PassEntry := steps.zipIdx.map fun e => ofStep e.1 e.2

end PassEntry

namespace Shown

variable (json : Bool) (steps : List Step)

/-- What is read of steps that are numbered from zero on. -/
def ofSteps : List Shown := (PassEntry.ofSteps steps).map (of json)

theorem map_index_ofSteps : (ofSteps json steps).map (·.index) = List.range steps.length := by
  rw [ofSteps, PassEntry.ofSteps, List.map_map, List.map_map, List.range_eq_range',
    ← List.zipIdx_map_snd 0 steps]
  rfl

/-- What does not depend on the numbers is read of each step in turn. -/
theorem map_ofSteps {β : Type} {view : Shown → β} {seen : Step → β}
    (same : ∀ step index, view (of json (.ofStep step index)) = seen step) :
    (ofSteps json steps).map view = steps.map seen := by
  calc (ofSteps json steps).map view
      = steps.zipIdx.map fun e => seen e.1 := by
        rw [ofSteps, PassEntry.ofSteps, List.map_map, List.map_map]
        exact List.map_congr_left fun e _ => same e.1 e.2
    _ = (steps.zipIdx.map Prod.fst).map seen := by rw [List.map_map]; rfl
    _ = steps.map seen := by rw [List.zipIdx_map_fst]

/-- No byte is left out when bytes are printed in pairs. -/
theorem bytes_ofStep (step : Step) (index : Nat) :
    (of json (.ofStep step index)).bytes = step.bytes := by
  rw [bytes, of, PassEntry.ofStep, Step.bytes, Simulated.pairs_flatMap_bytes, List.flatMap_map]
  rfl

end Shown

/-- What a step leaves in a cleared link. -/
theorem frames_clearLink {w : Walker Simulated} (opened : w.transmitter.link.closed = false)
    (step : Step) :
    ((clearLink w).sendStep step).2.transmitter.link.closed = false ∧
      ((clearLink w).sendStep step).2.transmitter.link.frames = Simulated.pairs step.bytes := by
  have gains := Transmitter.run_sendStep_gains (r := Record.simulated)
    (t := (clearLink w).transmitter) opened step
  refine ⟨gains.1, congrArg Simulated.pairs (gains.2.trans (List.nil_append _))⟩

theorem pass_succ {w w' : Walker Simulated} {step : Step} (next : w.nextStep 0 = (some step, w'))
    (index count : Nat) :
    pass w index (count + 1) =
      ⟨index, step, ((clearLink w').sendStep step).2.transmitter.link.frames⟩ ::
        pass ((clearLink w').sendStep step).2 (index + 1) count := by
  rw [pass, next]

/-- From `k` played steps on, the entries are those of the steps that are left of the pass. -/
theorem pass_eq {w : Walker Simulated} {name : String} {p : Program} {k : Nat}
    (playing : w.Playing name p k none) (opened : w.transmitter.link.closed = false) (count : Nat)
    (inPass : k + count = p.steps.length) :
    pass w k count = ((p.steps.drop k).zipIdx k).map fun e => .ofStep e.1 e.2 := by
  induction count generalizing w k with
  | zero =>
      have behind : p.steps.length ≤ k := Nat.le_of_eq inPass.symm
      rw [List.drop_of_length_le behind]
      rfl
  | succ count ih =>
      have inside : k < p.steps.length := by omega
      rcases playing.nextStep 0 with ⟨step, next, scheduled, playing', -⟩ | ⟨-, whole⟩
      · have here : p.steps[k] = step := by
          rw [Program.scheduled?_of_lt inside, List.getElem?_eq_getElem inside] at scheduled
          exact Option.some.inj scheduled
        obtain ⟨run, asked, -⟩ := Walker.nextStep_eq w 0
        rw [asked] at playing'
        obtain ⟨opened', frames⟩ := frames_clearLink (w := { w with run }) opened step
        have later : ((clearLink { w with run }).sendStep step).2.Playing name p (k + 1) none :=
          playing'.of_eq rfl rfl rfl
        rw [pass_succ (Prod.ext next asked), frames, ih later opened' (by omega),
          List.drop_eq_getElem_cons inside, List.zipIdx_cons, List.map_cons, here]
        rfl
      · have whole := Program.length_steps_le whole
        omega

/-- A program of mode `prg` is registered and selected with nothing in the way. -/
theorem playing_of_listed {p : Program} (listed : p.mode = .ok .prg) :
    ∃ w w₀, (newWalker .replace).register p = .ok w ∧ w.select 0 p.name = .ok w₀ ∧
      w₀.Playing p.name p 0 none ∧ w₀.transmitter.link.closed = false := by
  let w : Walker Simulated :=
    { newWalker .replace with registry := (newWalker .replace).registry.insert p.name p }
  have registered : w.registry.get? p.name = some p := Registry.get?_insert_self _ _ _
  exact ⟨w, w.start 0 p.name, Walker.register_of_valid _ listed,
    Walker.select_of_free registered nofun 0, .start registered listed 0, rfl⟩

/-- What is printed for a walk file of mode `prg`. -/
theorem frames_eq [Files Id] {file : String} {reading : WalkFile.Reading}
    (loaded : (WalkFile.load file : Id _) = .ok reading)
    (listed : reading.program.mode = .ok .prg) (json : Bool) :
    (frames json file : Id Output) =
      { lines := (PassEntry.ofSteps reading.program.steps).flatMap fun e =>
          if json then [e.json] else e.lines } := by
  obtain ⟨w, w₀, registered, selected, playing, opened⟩ := playing_of_listed listed
  have entries := pass_eq playing opened reading.program.steps.length (Nat.zero_add _)
  rw [List.drop_zero, Program.length_steps] at entries
  unfold frames
  simp only [loaded, bind, pure, listed, registered, selected, entries]
  rfl

/-- What `frames` prints for a walk file of mode `prg`, in either form, can be read off the lines: an
entry for each setup step and each main step, in order and numbered from zero on, with the delay and
the positions of that step.  Let the program be registered and selected in any session over a link
that refuses nothing, and let it be ticked at any times, with nothing sent from outside and the
program left undisturbed.  As long as no more was fired than one pass, the bytes that the link got
since then are those that are printed in just as many entries. -/
theorem frames_are_sent [Files Id] {file : String} {reading : WalkFile.Reading}
    (loaded : (WalkFile.load file : Id _) = .ok reading)
    (listed : reading.program.mode = .ok .prg) (json : Bool) :
    let p := reading.program
    let out : Output := (frames json file : Id Output)
    ∃ entries : List Shown,
      out.failure = none ∧ Shown.readAll? json out.lines = some entries ∧
      entries.map (·.index) = List.range (p.setup.size + p.main.size) ∧
      entries.map (·.delay) = (p.setup.toList ++ p.main.toList).map (·.delay) ∧
      entries.map (·.positions) = (p.setup.toList ++ p.main.toList).map (fun step =>
        step.positions.toList.map (Shown.position json)) ∧
      ∀ {L : Type} [Link L] {σ σ₀ : Session (Logged L)} (ops : List Operation),
        σ.walker.registry.get? p.name = some p →
        σ.perform (.select p.name) = (.selected, σ₀) →
        Link.Unfailing σ₀.link.link →
        (∀ e ∈ σ₀.history ops, e.1.disturbs p.name e.2 = false) →
        (∀ step, .sendStep step ∉ ops) →
        let fired := (Session.firings (σ₀.history ops)).length
        fired ≤ p.setup.size + p.main.size →
        accepted (σ₀.after ops).writes =
          accepted σ₀.writes ++ (entries.take fired).flatMap Shown.bytes := by
  intro p out
  have shown : out = _ := frames_eq loaded listed json
  refine ⟨Shown.ofSteps json p.steps, by rw [shown], ?_, ?_, ?_, ?_, ?_⟩
  · rw [shown]
    exact Shown.readAll?_printed json _
  · rw [Shown.map_index_ofSteps, p.length_steps]
  · exact Shown.map_ofSteps json p.steps fun _ _ => rfl
  · exact Shown.map_ofSteps json p.steps fun _ _ => rfl
  · intro L _ σ σ₀ ops registered selected unfailing undisturbed unsent fired inPass
    have playing := Session.playing_of_selected registered listed selected
    have gains := Session.after_gains (r := Record.logged) unfailing ops unsent
    have steps := Session.firings_of_pass playing ops undisturbed (p.length_steps ▸ inPass)
    have bytes := Shown.map_ofSteps json p.steps (Shown.bytes_ofStep json)
    have printed : (Session.firings (σ₀.history ops)).flatMap Firing.bytes =
        ((Shown.ofSteps json p.steps).take fired).flatMap Shown.bytes := by
      rw [steps, List.flatMap_map, List.flatMap_def, List.flatMap_def, List.map_take,
        List.map_take, bytes]
      rfl
    exact gains.2.trans (congrArg _ printed)

/-- A looping wave whose second step has a setpoint for its fourth servo that does not fit: three
frames of it are printed, and sent by the tick that plays it. -/
theorem frames_of_wave_are_sent :
    let lines : List String :=
      ["[info]", "Name=wave", "Looping=yes", "Use=prg", "[end]", "[setup]", ">90..12:0", "[end]",
        "[prg]", ">120..3,300,90..8:10", "[end]"]
    let text := ['\n'].intercalate (lines.map String.toList)
    let files : Files Id := ⟨fun _ => .ok (String.ofList text), fun _ => .ok [], fun _ => true,
      fun _ => true⟩
    let read : WalkFile.Reading := WalkFile.Reading.feedAll {} 1 (WalkFile.lines text)
    let wave : Program := { read.program with path := some "wave.walk" }
    let σ : Session (Logged Link.Null) :=
      { walker :=
          { transmitter := { link := ⟨{}, []⟩ }
            registry := Registry.empty.insert wave.name wave } }
    let σ₀ := { σ with walker := σ.walker.start σ.clock.now wave.name }
    let ops : List Operation := [.tick, .tick, .advance 5000, .tick]
    let out (json : Bool) : Output := @frames Id _ files json "wave.walk"
    (out false).lines =
      ["#0 Step[pos=[85, 85, 85, 85, 85, 85, 85, 85, 85, 85, 85, 85], delay=0]",
        "  servo  0: 0xa0 0x5a", "  servo  1: 0xa8 0x5a", "  servo  2: 0xb0 0x5a",
        "  servo  3: 0xb8 0x5a", "  servo  4: 0xc0 0x5a", "  servo  5: 0xc8 0x5a",
        "  servo  6: 0xd0 0x5a", "  servo  7: 0xd8 0x5a", "  servo  8: 0xe0 0x5a",
        "  servo  9: 0xe8 0x5a", "  servo 10: 0xf0 0x5a", "  servo 11: 0xf8 0x5a",
        "#1 Step[pos=[132, 132, 132, 416, 85, 85, 85, 85, 85, 85, 85, 85], delay=10]",
        "  servo  0: 0xa0 0x78", "  servo  1: 0xa8 0x78", "  servo  2: 0xb0 0x78"] ∧
    (out true).lines =
      ["\x7b\"delay_ms\":0,\"frames\":[\"a05a\",\"a85a\",\"b05a\",\"b85a\",\"c05a\",\"c85a\"," ++
          "\"d05a\",\"d85a\",\"e05a\",\"e85a\",\"f05a\",\"f85a\"]," ++
          "\"positions\":[90,90,90,90,90,90,90,90,90,90,90,90],\"step\":0\x7d",
        "\x7b\"delay_ms\":10,\"frames\":[\"a078\",\"a878\",\"b078\"]," ++
          "\"positions\":[120,120,120,300,90,90,90,90,90,90,90,90],\"step\":1\x7d"] ∧
    ∀ json, ∃ entries : List Shown,
      Shown.readAll? json (out json).lines = some entries ∧ entries.map (·.delay) = [0, 10] ∧
      accepted (σ₀.after ops).writes = entries.flatMap Shown.bytes ∧
      (accepted (σ₀.after ops).writes).length = 24 + 6 := by
  intro lines text files read wave σ σ₀ ops out
  obtain ⟨reading, loaded, program⟩ : ∃ reading, (WalkFile.load "wave.walk" : Id _) = .ok reading ∧
      reading.program = wave := by
    refine ⟨_, rfl, ?_⟩
    change { (WalkFile.read (String.ofList text)).program with path := some "wave.walk" } = wave
    rw [WalkFile.read_ofList]
  have listed : wave.mode = .ok .prg := by decide +kernel
  have printed (json : Bool) : out json = _ := frames_eq loaded (program ▸ listed) json
  rw [program] at printed
  refine ⟨?_, ?_, fun json => ?_⟩
  · rw [printed]
    decide +kernel
  · rw [printed]
    simp only [if_true, Shown.json_eq]
    decide +kernel
  have calm : ∀ e ∈ σ₀.history ops, e.1.disturbs wave.name e.2 = false := by decide +kernel
  have fired : (Session.firings (σ₀.history ops)).length = wave.setup.size + wave.main.size := by
    decide +kernel
  have sent : (accepted (σ₀.after ops).writes).length = 24 + 6 := by decide +kernel
  have delays : (wave.setup.toList ++ wave.main.toList).map (·.delay) = [0, 10] := by decide +kernel
  have unfailing : Link.Unfailing σ₀.link.link := Link.unfailing_of_write (fun _ _ => rfl) _
  have registered : σ.walker.registry.get? wave.name = some wave := Registry.get?_insert_self _ _ _
  have selected : σ.perform (.select wave.name) = (.selected, σ₀) := by
    rw [Session.perform, Walker.select_of_free registered nofun]
  clear_value wave
  subst program
  obtain ⟨entries, -, readBack, indices, shownDelays, -, bytes⟩ := frames_are_sent loaded listed json
  have same := bytes ops registered selected unfailing calm (by simp [ops]) (Nat.le_of_eq fired)
  have count : entries.length = (Session.firings (σ₀.history ops)).length := by
    rw [fired, ← List.length_range (n := _ + _), ← indices, List.length_map]
  refine ⟨entries, readBack, shownDelays.trans delays, ?_, sent⟩
  rw [← count, List.take_length] at same
  exact same

end CommandLine

end Gait
