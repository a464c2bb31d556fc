import StepSequencer.Proofs.Host.Memory

/-!
# The transport of a host

A tick plays the current step and moves the transport; it changes the registers of the transport
and nothing else. So a host that plays fires the triggers of its memory step after step to the end
of the bar, and stops there unless it loops.
-/
namespace StepSequencer.Host

variable {host later : Host} {control : UInt8} {step : Nat}

/-- A host later on: its control byte, the step that it plays next, and the memory of the host
everywhere else. -/
structure Moved (host : Host) (control : UInt8) (step : Nat) (later : Host) : Prop where
  sized : later.memory.size = memorySize
  control : later.peek Register.control = control
  step : later.step = step
  elsewhere : ∀ address, inMemory address = true → address ≠ Register.control →
    address ≠ Register.step → later.peek address = host.peek address

/-- A host has not moved at first. -/
theorem Moved.refl (sized : host.memory.size = memorySize) :
    Moved host (host.peek Register.control) host.step host :=
  ⟨sized, rfl, rfl, fun _ _ _ _ => rfl⟩

/-- Steps and sounds of the voices are not moved. -/
theorem Moved.triggers (moved : Moved host control step later) {place : Nat}
    (bound : place < stepCount) : later.triggers place = host.triggers place := by
  have count : stepCount = 16 := rfl
  have same (address : Int) (low : 0x1000 ≤ address) (high : address < 0x1400) :
      later.peek address = host.peek address := by
    have registers : Register.control = 0x1500 ∧ Register.step = 0x1502 := ⟨rfl, rfl⟩
    exact moved.elsewhere address (inMemory_iff.mpr (by omega)) (by omega) (by omega)
  have sound (gate : UInt8) (voice : Voice) : later.triggerOf gate voice =
      host.triggerOf gate voice := by
    cases voice <;> simp only [triggerOf] <;> congr 1 <;> exact same _ (by decide) (by decide)
  have gate (voice : Voice) : later.peek (voice.base + place) = host.peek (voice.base + place) := by
    have range := voice.base_range
    exact same _ (by omega) (by omega)
  simp only [Host.triggers, gate, sound]

/-- The step register takes the number of a step. -/
theorem step_put_step (sized : host.memory.size = memorySize) {next : Nat}
    (bound : next < stepCount) : (host.put Register.step (UInt8.ofNat next)).step = next := by
  have count : stepCount = 16 := rfl
  have size : UInt8.size = 256 := rfl
  rw [Host.step, peek_put sized _ _ (by decide), if_pos rfl, UInt8.toNat_ofNat_of_lt' (by omega),
    Nat.mod_eq_of_lt bound]

/-- Setting the step moves the transport there. -/
theorem Moved.put_step (moved : Moved host control step later) {next : Nat}
    (bound : next < stepCount) :
    Moved host control next (later.put Register.step (UInt8.ofNat next)) where
  sized := by rw [size_put, moved.sized]
  control := by
    rw [peek_put moved.sized _ _ (by decide), if_neg (by decide), moved.control]
  step := step_put_step moved.sized bound
  elsewhere := by
    intro address inside notControl notStep
    rw [peek_put moved.sized _ _ inside, if_neg (Ne.symm notStep)]
    exact moved.elsewhere address inside notControl notStep

/-- Stopping clears the lowest bit of the control byte. -/
theorem Moved.stop (moved : Moved host control step later) :
    Moved host (control &&& 0xFE) step later.stop where
  sized := by rw [Host.stop, size_put, moved.sized]
  control := by
    rw [Host.stop, peek_put moved.sized _ _ (by decide), if_pos rfl, moved.control]
  step := by
    rw [Host.stop, Host.step, peek_put moved.sized _ _ (by decide), if_neg (by decide)]
    exact moved.step
  elsewhere := by
    intro address inside notControl notStep
    rw [Host.stop, peek_put moved.sized _ _ inside, if_neg (Ne.symm notControl)]
    exact moved.elsewhere address inside notControl notStep

/-- Before the end of the bar, or in a loop, the transport goes on. -/
theorem Moved.advance_on (moved : Moved host control step later)
    (goes : (step + 1) % stepCount ≠ 0 ∨ control &&& 2 ≠ 0) :
    Moved host control ((step + 1) % stepCount) later.advance := by
  have next := moved.put_step (Nat.mod_lt (step + 1) (by decide : stepCount > 0))
  have looping : (later.put Register.step (UInt8.ofNat ((step + 1) % stepCount))).isLooping =
      (control &&& 2 != 0) := by
    rw [isLooping, next.control]
  rw [Host.advance, moved.step, looping, if_neg]
  · exact next
  · rintro ⟨atEnd, still⟩
    rcases goes with before | looped
    · exact before atEnd
    · simp [looped] at still

/-- At the end of the bar the transport stops, unless it loops. -/
theorem Moved.advance_last (moved : Moved host control step later)
    (atEnd : (step + 1) % stepCount = 0) (once : control &&& 2 = 0) :
    Moved host (control &&& 0xFE) 0 later.advance := by
  have next := moved.put_step (Nat.mod_lt (step + 1) (by decide : stepCount > 0))
  rw [atEnd] at next
  have looping : (later.put Register.step (UInt8.ofNat 0)).isLooping = false := by
    rw [isLooping, next.control, once]
    rfl
  rw [Host.advance, moved.step, atEnd, if_pos ⟨rfl, looping⟩]
  exact next.stop

/-- The lowest bit of the control byte is that of the transport. -/
theorem Moved.isPlaying (moved : Moved host control step later) :
    later.isPlaying = (control &&& 1 != 0) := by
  rw [Host.isPlaying, moved.control]

/-- A host whose lowest control bit was cleared does not play. -/
theorem Moved.isPlaying_cleared (moved : Moved host (control &&& 0xFE) step later) :
    later.isPlaying = false := by
  have apart : (0xFE : UInt8) &&& 1 = 0 := by decide
  rw [moved.isPlaying, UInt8.and_assoc, apart, UInt8.and_zero]
  rfl

/-- A tick of a host that plays fires the triggers of its step. -/
theorem Moved.tick (moved : Moved host control step later) (plays : control &&& 1 ≠ 0) :
    later.tick = (later.advance, host.triggers step) := by
  have bound : step < stepCount := by
    rw [← moved.step]
    exact Nat.mod_lt _ (by decide)
  have playing : later.isPlaying = true := by
    rw [moved.isPlaying]
    exact bne_iff_ne.mpr plays
  rw [Host.tick, if_pos playing, moved.step, moved.triggers bound]

/-- Ticks in a row. -/
theorem ticks_succ (host : Host) (count : Nat) :
    host.ticks (count + 1) =
      ((host.tick.1.ticks count).1, host.tick.2 ++ (host.tick.1.ticks count).2.1,
        host.tick.1.isPlaying :: (host.tick.1.ticks count).2.2) := rfl

/-- Up to the end of the bar a host that plays fires the triggers of step after step. -/
theorem Moved.ticks (moved : Moved host control step later) (plays : control &&& 1 ≠ 0)
    (count : Nat) (room : step + count < stepCount) :
    ∃ last, later.ticks count =
        (last, (List.range' step count).flatMap host.triggers, List.replicate count true) ∧
      Moved host control (step + count) last := by
  -- The invariant is `Moved`: every tick leaves the host one step further and otherwise as it was.
  induction count generalizing step later with
  | zero => exact ⟨later, rfl, moved⟩
  | succ count ih =>
    have next : (step + 1) % stepCount = step + 1 := Nat.mod_eq_of_lt (by omega)
    have advanced := moved.advance_on (.inl (by omega))
    rw [next] at advanced
    obtain ⟨last, fired, reached⟩ := ih advanced (by omega)
    refine ⟨last, ?_, by rwa [Nat.add_assoc, Nat.add_comm 1] at reached⟩
    have playing : later.advance.isPlaying = true := by
      rw [advanced.isPlaying]
      exact bne_iff_ne.mpr plays
    rw [ticks_succ, moved.tick plays, fired, playing, List.range'_succ, List.flatMap_cons,
      List.replicate_succ]

/-- Ticks after other ticks. -/
theorem ticks_add (host : Host) (first second : Nat) :
    host.ticks (first + second) =
      (((host.ticks first).1.ticks second).1,
        (host.ticks first).2.1 ++ ((host.ticks first).1.ticks second).2.1,
        (host.ticks first).2.2 ++ ((host.ticks first).1.ticks second).2.2) := by
  induction first generalizing host with
  | zero => rw [Nat.zero_add]; rfl
  | succ first ih =>
    rw [Nat.add_right_comm, ticks_succ, ih, ticks_succ, List.append_assoc]
    rfl

/-- A host that plays once fires the rest of the bar, and runs until the last of its steps. -/
theorem Moved.ticks_bar (moved : Moved host control step later) (plays : control &&& 1 ≠ 0)
    (once : control &&& 2 = 0) {count : Nat} (rest : step + (count + 1) = stepCount) :
    ∃ last, later.ticks (count + 1) =
        (last, (List.range' step (count + 1)).flatMap host.triggers,
          List.replicate count true ++ [false]) ∧
      Moved host (control &&& 0xFE) 0 last := by
  -- All ticks but the last stay inside the bar.
  obtain ⟨before, fired, reached⟩ := moved.ticks plays count (by omega)
  have atEnd : (step + count + 1) % stepCount = 0 := by
    rw [Nat.add_assoc, rest, Nat.mod_self]
  have advanced := reached.advance_last atEnd once
  refine ⟨before.advance, ?_, advanced⟩
  rw [ticks_add, fired, ticks_succ, reached.tick plays, advanced.isPlaying_cleared,
    List.range'_concat, List.flatMap_append, List.flatMap_singleton, Nat.one_mul]
  simp only [Host.ticks, List.append_nil]

end StepSequencer.Host
