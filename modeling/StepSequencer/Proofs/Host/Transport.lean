import Mathlib.Data.List.Basic
import StepSequencer.Proofs.Host.Playback

/-!
# Runs of the transport

What any number of ticks does to a host that plays, whatever its memory holds. A host that loops
goes round the bar without end; a host that does not plays the rest of the bar and then stands
still. Only the control byte and the step register ever change.
-/
namespace StepSequencer.Host

variable {host later : Host} {control : UInt8} {step : Nat}

/-- The sounds that memory holds for a step: one for each voice whose byte there is not zero, kick,
snare, lead, bass and noise in this order, with what the registers of the voice hold. -/
def soundsAt (host : Host) (step : Nat) : List Trigger :=
  let gate (base : Int) (sound : UInt8 → Trigger) : List Trigger :=
    let byte := host.peek (base + step)
    if byte = 0 then [] else [sound byte]
  gate 0x1000 (fun _ => .kick (host.peek 0x1010)) ++
    gate 0x1020 (fun _ => .snare (host.peek 0x1030) (host.peek 0x1040)) ++
    gate 0x1100 .lead ++
    gate 0x1200 (fun note => .bass note (host.peek 0x1210)) ++
    gate 0x1300 (fun _ => .noise (host.peek 0x1310))

/-- A step triggers the sounds that memory holds for it. -/
theorem triggers_eq_soundsAt (host : Host) : host.triggers = host.soundsAt := by
  funext step
  have voices : host.triggers step = Voice.all.flatMap fun voice =>
      if host.peek (voice.base + step) = 0 then []
      else [host.triggerOf (host.peek (voice.base + step)) voice] := by
    rw [triggers, List.filterMap_eq_flatMap_toList]
    refine List.flatMap_congr fun voice _ => ?_
    dsimp only
    split <;> rfl
  rw [voices]
  simp only [Voice.all, List.flatMap_cons, List.flatMap_nil, List.append_nil, ← List.append_assoc]
  rfl

/-- The step that plays next is one of the bar. -/
theorem step_lt (host : Host) : host.step < stepCount := Nat.mod_lt _ (by decide)

/-! ### The step register -/

/-- A host whose step register holds the number of a step, and nothing above. -/
structure OnStep (host : Host) : Prop where
  sized : host.memory.size = memorySize
  exact : (host.peek Register.step).toNat = host.step

/-- Moving on leaves the number of a step in the register. -/
theorem onStep_advance (sized : host.memory.size = memorySize) : host.advance.OnStep := by
  have count : stepCount = 16 := rfl
  have size : UInt8.size = 256 := rfl
  have bound := Nat.mod_lt (host.step + 1) (show stepCount > 0 by decide)
  generalize moves : host.put Register.step (UInt8.ofNat ((host.step + 1) % stepCount)) = moved
  have movedSized : moved.memory.size = memorySize := by rw [← moves, size_put, sized]
  have written : (moved.peek Register.step).toNat = (host.step + 1) % stepCount := by
    rw [← moves, peek_put sized _ _ (by decide), if_pos rfl, UInt8.toNat_ofNat_of_lt' (by omega)]
  have onStep : moved.OnStep := ⟨movedSized, by rw [Host.step, written, Nat.mod_mod]⟩
  rw [advance, moves]
  split
  · have kept : moved.stop.peek Register.step = moved.peek Register.step := by
      rw [stop, peek_put movedSized _ _ (by decide), if_neg (by decide)]
    exact ⟨by rw [stop, size_put, movedSized], by rw [Host.step, kept]; exact onStep.exact⟩
  · exact onStep

/-- A tick leaves the step register on a step of the bar. -/
theorem OnStep.tick (onStep : host.OnStep) : host.tick.1.OnStep := by
  unfold Host.tick
  split
  · exact onStep_advance onStep.sized
  · exact onStep

/-- Ticks leave the step register on a step of the bar. -/
theorem OnStep.ticks (onStep : host.OnStep) (count : Nat) : (host.ticks count).1.OnStep := by
  induction count generalizing host with
  | zero => exact onStep
  | succ count ih =>
    rw [ticks_succ]
    exact ih onStep.tick

/-- Once a host has played, its register holds the number of a step, whatever it held before. -/
theorem onStep_ticks (sized : host.memory.size = memorySize) (plays : host.isPlaying = true)
    (count : Nat) : (host.ticks (count + 1)).1.OnStep := by
  have first : host.tick.1 = host.advance := by rw [Host.tick, if_pos plays]
  rw [ticks_succ, first]
  exact (onStep_advance sized).ticks count

/-! ### Runs -/

/-- A host that stands still stays as it is. -/
theorem ticks_of_stopped (stopped : host.isPlaying = false) (count : Nat) :
    host.ticks count = (host, [], List.replicate count false) := by
  have still : host.tick = (host, []) := by
    rw [tick, stopped, if_neg Bool.false_ne_true]
  induction count with
  | zero => rfl
  | succ count ih => rw [ticks_succ, still, ih, stopped, List.replicate_succ, List.nil_append]

/-- A host that loops goes round the bar. -/
theorem Moved.ticks_looping (moved : Moved host control (step % stepCount) later)
    (plays : control &&& 1 ≠ 0) (loops : control &&& 2 ≠ 0) (count : Nat) :
    ∃ last, later.ticks count =
        (last, (List.range' step count).flatMap (fun number => host.triggers (number % stepCount)),
          List.replicate count true) ∧
      Moved host control ((step + count) % stepCount) last := by
  induction count generalizing step later with
  | zero => exact ⟨later, rfl, moved⟩
  | succ count ih =>
    have advanced := moved.advance_on (.inr loops)
    rw [Nat.mod_add_mod] at advanced
    obtain ⟨last, ticked, reached⟩ := ih advanced
    refine ⟨last, ?_, by rwa [Nat.add_assoc, Nat.add_comm 1] at reached⟩
    have playing : later.advance.isPlaying = true := by
      rw [advanced.isPlaying]
      exact bne_iff_ne.mpr plays
    rw [ticks_succ, moved.tick plays, ticked, playing, List.range'_succ, List.flatMap_cons,
      List.replicate_succ]

/-- A host that does not loop has stopped at the end of the bar, and stays as it is there. -/
theorem Moved.ticks_beyond (moved : Moved host control step later) (plays : control &&& 1 ≠ 0)
    (once : control &&& 2 = 0) (more : Nat) :
    ∃ last, later.ticks (stepCount - step + more) =
        (last, (List.range' step (stepCount - step)).flatMap host.triggers,
          List.replicate (stepCount - 1 - step) true ++ List.replicate (more + 1) false) ∧
      last = (later.ticks (stepCount - step)).1 ∧ Moved host (control &&& 0xFE) 0 last := by
  have bound : step < stepCount := moved.step ▸ later.step_lt
  obtain ⟨count, rest⟩ : ∃ count, stepCount - step = count + 1 := ⟨stepCount - step - 1, by omega⟩
  have before : stepCount - 1 - step = count := by omega
  obtain ⟨last, ticked, reached⟩ :=
    moved.ticks_bar plays once (show step + (count + 1) = stepCount by omega)
  refine ⟨last, ?_, by rw [rest, ticked], reached⟩
  rw [ticks_add, rest, before, ticked, ticks_of_stopped reached.isPlaying_cleared, List.append_nil,
    List.append_assoc, List.singleton_append, List.replicate_succ]

/-- Ticks of a host that plays, whatever its memory holds. Only the control byte and the step
register change. A host that loops sounds step after step round the bar and never stops. A host that
does not sounds the steps up to the end of the bar; the tick of the last of them is the first after
which it does not play, the step register is zero from there on, only the lowest bit of the control
byte is cleared, and further ticks change nothing. -/
theorem ticks_of_playing {host : Host} (sized : host.memory.size = memorySize)
    (plays : host.isPlaying = true) {count : Nat} (some : 1 ≤ count) :
    ∃ last fired returned, host.ticks count = (last, fired, returned) ∧
      last.memory.size = memorySize ∧
      (∀ address, inMemory address = true → address ≠ Register.control →
        address ≠ Register.step → last.peek address = host.peek address) ∧
      (host.isLooping = true →
        fired = (List.range' host.step count).flatMap
          (fun number => host.soundsAt (number % stepCount)) ∧
        returned = List.replicate count true ∧
        last.peek Register.control = host.peek Register.control ∧
        (last.peek Register.step).toNat = (host.step + count) % stepCount) ∧
      (host.isLooping = false →
        fired = (List.range' host.step (min count (stepCount - host.step))).flatMap
          host.soundsAt ∧
        returned = List.replicate (min count (stepCount - 1 - host.step)) true ++
          List.replicate (count - (stepCount - 1 - host.step)) false ∧
        (count < stepCount - host.step →
          last.peek Register.control = host.peek Register.control ∧
          (last.peek Register.step).toNat = host.step + count) ∧
        (stepCount - host.step ≤ count →
          last = (host.ticks (stepCount - host.step)).1 ∧
          last.peek Register.control = host.peek Register.control &&& 0xFE ∧
          (last.peek Register.step).toNat = 0)) := by
  have moved := Moved.refl sized
  have playBit : host.peek Register.control &&& 1 ≠ 0 := bne_iff_ne.mp plays
  have bound := host.step_lt
  have register : ((host.ticks count).1.peek Register.step).toNat = (host.ticks count).1.step := by
    obtain ⟨before, rfl⟩ := Nat.exists_eq_add_of_le' some
    exact (onStep_ticks sized plays before).exact
  rw [← triggers_eq_soundsAt]
  by_cases loops : host.isLooping = true
  · rw [← Nat.mod_eq_of_lt bound] at moved
    obtain ⟨last, ticked, reached⟩ := moved.ticks_looping playBit (bne_iff_ne.mp loops) count
    rw [ticked, reached.step] at register
    refine ⟨last, _, _, ticked, reached.sized, reached.elsewhere, fun _ => ?_, fun once => ?_⟩
    · exact ⟨rfl, rfl, reached.control, register⟩
    · exact absurd (once.symm.trans loops) Bool.false_ne_true
  · have once : host.peek Register.control &&& 2 = 0 := by simpa [isLooping] using loops
    by_cases inside : count < stepCount - host.step
    · obtain ⟨last, ticked, reached⟩ := moved.ticks playBit count (by omega)
      rw [ticked, reached.step] at register
      refine ⟨last, _, _, ticked, reached.sized, reached.elsewhere, fun loop => absurd loop loops,
        fun _ => ⟨?_, ?_, fun _ => ⟨reached.control, register⟩, fun beyond => ?_⟩⟩
      · rw [Nat.min_eq_left (Nat.le_of_lt inside)]
      · rw [Nat.min_eq_left (by omega), Nat.sub_eq_zero_of_le (by omega), List.replicate_zero,
          List.append_nil]
      · exact absurd inside (by omega)
    · obtain ⟨more, rfl⟩ := Nat.exists_eq_add_of_le (Nat.le_of_not_lt inside)
      obtain ⟨last, ticked, still, reached⟩ := moved.ticks_beyond playBit once more
      rw [ticked, reached.step] at register
      refine ⟨last, _, _, ticked, reached.sized, reached.elsewhere, fun loop => absurd loop loops,
        fun _ => ⟨?_, ?_, fun early => absurd early inside,
          fun _ => ⟨still, reached.control, register⟩⟩⟩
      · rw [Nat.min_eq_right (by omega)]
      · rw [Nat.min_eq_right (by omega),
          show stepCount - host.step + more - (stepCount - 1 - host.step) = more + 1 by omega]

/-- A host whose step register is above the bar, with a kick on the first step and a lead on the
last. -/
def strayHost (control : Int) : Host :=
  (start 120).putStores
    [(0x1500, control), (0x1502, 0x3E), (0x1000, 1), (0x1010, 7), (0x110F, 60)]

/-- The bytes of that host. -/
theorem peek_strayHost (control : Int) : (strayHost control).peek = fun address =>
    if address = 0x110F then 60 else if address = 0x1010 then 7 else if address = 0x1000 then 1
    else if address = 0x1502 then 0x3E else if address = 0x1500 then byteOf control
    else if address = 0x1501 then 120 else 0 := by
  funext address
  by_cases inside : inMemory address = true
  · rw [strayHost, peek_putStores (size_start 120) _ inside, peek_start 120 inside]
    simp only [Store.last?, Option.none_or, eq_comm (b := address), Register.tempo]
    repeat' split
    all_goals rfl
  · have beyond := mt inMemory_iff.mpr inside
    rw [peek, if_neg inside, if_neg (by omega), if_neg (by omega), if_neg (by omega),
      if_neg (by omega), if_neg (by omega), if_neg (by omega)]

/-- Stray bits in both registers: without a loop the last two steps of the bar play and the third
tick changes nothing, with a loop the third tick plays the first step. -/
theorem ticks_of_playing_stray_bits :
    (strayHost 0xF5).memory.size = memorySize ∧ (strayHost 0xF5).isPlaying = true ∧
      (∃ last, (strayHost 0xF5).ticks 3 = (last, [.lead 60], [true, false, false]) ∧
        last.peek Register.control = 0xF4 ∧ (last.peek Register.step).toNat = 0) ∧
      (∃ last, (strayHost 0xF7).ticks 3 = (last, [.lead 60, .kick 7], [true, true, true]) ∧
        last.peek Register.control = 0xF7 ∧ (last.peek Register.step).toNat = 1) := by
  have sized (control : Int) : (strayHost control).memory.size = memorySize := by
    rw [strayHost, size_putStores, size_start]
  have control (value : Int) : (strayHost value).peek Register.control = byteOf value := by
    rw [peek_strayHost]
    rfl
  have step (control : Int) : (strayHost control).step = 14 := by
    have register : (strayHost control).peek Register.step = 0x3E := by
      rw [peek_strayHost]
      rfl
    rw [Host.step, register]
    decide
  have sounds (control : Int) : (strayHost control).soundsAt 14 = [] ∧
      (strayHost control).soundsAt 15 = [.lead 60] ∧
      (strayHost control).soundsAt 0 = [.kick 7] := by
    unfold soundsAt
    rw [peek_strayHost]
    exact ⟨rfl, rfl, rfl⟩
  have plays : (strayHost 0xF5).isPlaying = true := by
    rw [isPlaying, control]
    decide
  have turns : (strayHost 0xF7).isPlaying = true := by
    rw [isPlaying, control]
    decide
  have once : (strayHost 0xF5).isLooping = false := by
    rw [isLooping, control]
    decide
  have loops : (strayHost 0xF7).isLooping = true := by
    rw [isLooping, control]
    decide
  refine ⟨sized _, plays, ?_, ?_⟩
  · obtain ⟨last, fired, returned, ticked, -, -, -, run⟩ :=
      ticks_of_playing (sized 0xF5) plays (show 1 ≤ 3 by decide)
    obtain ⟨sounded, returns, -, ended⟩ := run once
    rw [step] at sounded returns ended
    obtain ⟨-, cleared, first⟩ := ended (by decide)
    refine ⟨last, ?_, ?_, first⟩
    · rw [ticked, sounded, returns]
      simp [stepCount, List.range', sounds]
    · rw [cleared, control]
      decide
  · obtain ⟨last, fired, returned, ticked, -, -, run, -⟩ :=
      ticks_of_playing (sized 0xF7) turns (show 1 ≤ 3 by decide)
    obtain ⟨sounded, returns, kept, next⟩ := run loops
    rw [step] at sounded next
    refine ⟨last, ?_, ?_, next⟩
    · rw [ticked, sounded, returns]
      simp [stepCount, List.range', sounds]
    · rw [kept, control]
      decide

end StepSequencer.Host
