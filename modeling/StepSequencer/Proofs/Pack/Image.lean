import StepSequencer.Pack.Catalog
import StepSequencer.Proofs.IntelHex.Region
import StepSequencer.Proofs.Pack.Stores

/-!
# A demo and its program in memory

Loading a demo stores the settings of the pack, the tempo and all sixteen steps of each voice. The
program of the demo stores the tempo first and leaves out the rests. So the two leave the same
region exactly when the settings of the pack do not touch what the demo has to overwrite: the tempo
register and the rests of the voices.
-/
namespace StepSequencer

namespace Demo

/-- The stores of a voice are in a row from its base. -/
theorem voiceStores_eq_row (voice : Voice) (values : List Int) :
    voiceStores voice values = Store.row voice.base values := by
  have row := Store.row_eq_zipIdx voice.base values 0
  rw [Int.natCast_zero, Int.add_zero] at row
  exact row.symm

/-- A voice stores nothing elsewhere. -/
theorem last?_voiceStores_outside {voice : Voice} {text : List Char} {address : Int}
    (outside : ¬(voice.base ≤ address ∧ address < voice.base + stepCount)) :
    Store.last? (voiceStores voice (decode text)) address = none := by
  rw [Store.last?_eq_none_iff, voiceStores_eq_row]
  intro store member same
  have bounds := Store.row_addresses _ _ store member
  rw [length_decode, same] at bounds
  exact outside bounds

/-- The stores of a demo in terms of the voices that are played. -/
theorem stores_eq_played (demo : Demo) :
    demo.stores = (demo.tempo?.toList.map fun bpm => (Register.tempo, bpm)) ++
      (Catalog.played demo).flatMap fun entry =>
        voiceStores entry.1 (decode entry.2.toList) := by
  rw [stores, Catalog.played]
  refine congrArg _ ?_
  induction Voice.all with
  | nil => rfl
  | cons voice voices ih =>
    rw [List.flatMap_cons, ih, List.filterMap_cons]
    cases demo.text? voice <;> rfl

end Demo

namespace Catalog

variable {key name : String} {pack : Pack} {demo : Demo}

/-- What struck steps leave: the steps of the voice without the rests. -/
theorem last?_struck (voice : Voice) (text : String) (address : Int) :
    Store.last? (struck voice text) address =
      (Store.last? (Demo.voiceStores voice (Demo.decode text.toList)) address).filter fun value =>
        value != 0 := by
  rw [struck, Demo.voiceStores_eq_row]
  exact Store.last?_row_nonzero _ _ _

/-- Among voices that are played, an address of one of them belongs to no other. -/
theorem quiet_entries {voice : Voice} {text : String} {address : Int}
    (here : voice.base ≤ address ∧ address < voice.base + stepCount)
    (member : demo.text? voice = some text) {entry : Voice × String} (other : entry ∈ played demo)
    (different : entry ≠ (voice, text)) :
    Store.last? (Demo.voiceStores entry.1 (Demo.decode entry.2.toList)) address = none := by
  refine Demo.last?_voiceStores_outside fun there => different ?_
  obtain ⟨otherVoice, otherText⟩ := entry
  obtain rfl := Voice.eq_of_base here there
  have texts := (mem_played.mp other).symm.trans member
  rw [Option.some.inj texts]

/-- The stores of all voices of a demo, rests included. -/
def voiceStores (demo : Demo) : List Store :=
  (played demo).flatMap fun entry => Demo.voiceStores entry.1 (Demo.decode entry.2.toList)

/-- The value that the voices of a demo store at an address is that of the step there. -/
theorem last?_voiceStores_eq_some_iff {address value : Int} :
    Store.last? (voiceStores demo) address = some value ↔
      ∃ (voice : Voice) (text : String) (step : Nat), demo.text? voice = some text ∧
        address = voice.base + step ∧ (Demo.decode text.toList)[step]? = some value := by
  constructor
  · intro found
    obtain ⟨⟨voice, text⟩, member, stored⟩ := List.mem_flatMap.mp (Store.mem_of_last? found)
    obtain ⟨⟨own, step⟩, indexed, same⟩ := List.mem_map.mp stored
    obtain ⟨rfl, rfl⟩ := Prod.mk.inj same
    exact ⟨voice, text, step, mem_played.mp member, rfl,
      List.mk_mem_zipIdx_iff_getElem?.mp indexed⟩
  · rintro ⟨voice, text, step, given, rfl, here⟩
    have bound := (List.getElem?_eq_some_iff.mp here).1
    rw [Demo.length_decode] at bound
    have range : voice.base ≤ voice.base + (step : Int) ∧
        voice.base + (step : Int) < voice.base + stepCount := by omega
    rw [voiceStores, Store.last?_flatMap_of_mem (mem_played.mpr given) fun other known different =>
      quiet_entries range given known different, Demo.voiceStores_eq_row, Store.last?_row, here]

/-- Where a voice stores nothing, it stores nothing without its rests, either. -/
theorem last?_struck_eq_none {entry : Voice × String} {address : Int}
    (quiet : Store.last? (Demo.voiceStores entry.1 (Demo.decode entry.2.toList)) address = none) :
    Store.last? (struck entry.1 entry.2) address = none := by
  rw [last?_struck, quiet, Option.filter_none]

/-- At an address of a voice, some of the voices store what that voice does, if it is among
them. -/
theorem last?_filter_struck {voice : Voice} {text : String} {address : Int}
    (here : voice.base ≤ address ∧ address < voice.base + stepCount)
    (member : (voice, text) ∈ played demo) (keep : Voice × String → Bool) :
    Store.last? (((played demo).filter keep).flatMap fun entry => struck entry.1 entry.2) address =
      if keep (voice, text) then Store.last? (struck voice text) address else none := by
  have apart {other : Voice × String} (known : other ∈ played demo)
      (different : other ≠ (voice, text)) :=
    last?_struck_eq_none (quiet_entries here (mem_played.mp member) known different)
  split
  · next inside =>
    exact Store.last?_flatMap_of_mem (List.mem_filter.mpr ⟨member, inside⟩)
      fun other known different => apart (List.mem_filter.mp known).1 different
  · next outside =>
    refine Store.last?_flatMap_eq_none fun other known => ?_
    obtain ⟨among, keeps⟩ := List.mem_filter.mp known
    exact apart among fun same => outside (same ▸ keeps)

/-- The program of a demo stores what the demo stores, except for the rests. -/
theorem last?_struckStores (demo : Demo) (address : Int) :
    Store.last? (noteStores demo ++ sceneStores demo ++ sceneStores demo) address =
      (Store.last? (voiceStores demo) address).filter fun value => value != 0 := by
  rw [Store.last?_append, Store.last?_append, noteStores, sceneStores, voiceStores]
  by_cases owned : ∃ entry ∈ played demo, entry.1.base ≤ address ∧
      address < entry.1.base + stepCount
  · obtain ⟨⟨voice, text⟩, member, here⟩ := owned
    have whole := Store.last?_flatMap_of_mem member fun other known different =>
      quiet_entries here (mem_played.mp member) known different
    rw [whole, ← last?_struck, last?_filter_struck here member, last?_filter_struck here member]
    cases spelled text <;> simp
  · have quiet : ∀ entry ∈ played demo,
        Store.last? (Demo.voiceStores entry.1 (Demo.decode entry.2.toList)) address = none :=
      fun entry member => Demo.last?_voiceStores_outside fun here => owned ⟨entry, member, here⟩
    have silent (keep : Voice × String → Bool) :
        Store.last? (((played demo).filter keep).flatMap fun entry => struck entry.1 entry.2)
          address = none :=
      Store.last?_flatMap_eq_none fun entry member =>
        last?_struck_eq_none (quiet entry (List.mem_filter.mp member).1)
    rw [silent, silent, Store.last?_flatMap_eq_none quiet]
    rfl

/-- The stores of the tempo of a demo. -/
def tempoStores (demo : Demo) : List Store :=
  demo.tempo?.toList.map fun bpm => (Register.tempo, bpm)

/-- A demo stores its tempo in the register of the tempo alone. -/
theorem last?_tempoStores (demo : Demo) (address : Int) :
    Store.last? (tempoStores demo) address =
      if Register.tempo = address then demo.tempo? else none := by
  unfold tempoStores
  cases demo.tempo? with
  | none => split <;> rfl
  | some bpm => exact Option.none_or

/-- The stores that load a demo and start it. -/
def loaded (pack : Pack) (demo : Demo) : List Store :=
  pack.init ++ demo.stores ++ [(Register.control, 3)]

/-- The stores of the program of a demo. -/
def compiled (pack : Pack) (demo : Demo) : List Store :=
  tempoStores demo ++ pack.init ++ noteStores demo ++ sceneStores demo ++ sceneStores demo ++
    [(Register.control, 3)]

/-- What a demo that is loaded leaves: the start of the transport, the steps of its voices, its
tempo and the settings of the pack, the first of them that there is. -/
theorem last?_loaded (pack : Pack) (demo : Demo) (address : Int) :
    Store.last? (loaded pack demo) address =
      (if Register.control = address then some 3 else none).or
        ((Store.last? (voiceStores demo) address).or
          ((if Register.tempo = address then demo.tempo? else none).or
            (Store.last? pack.init address))) := by
  have start : Store.last? [(Register.control, 3)] address =
      if Register.control = address then some 3 else none := Option.none_or
  have demoStores : demo.stores = tempoStores demo ++ voiceStores demo := demo.stores_eq_played
  rw [loaded, demoStores, ← List.append_assoc, Store.last?_append, Store.last?_append,
    Store.last?_append, start, last?_tempoStores]

/-- What the program of a demo leaves: the start of the transport, the steps of its voices but for
rests, the settings of the pack and its tempo, the first of them that there is. -/
theorem last?_compiled (pack : Pack) (demo : Demo) (address : Int) :
    Store.last? (compiled pack demo) address =
      (if Register.control = address then some 3 else none).or
        (((Store.last? (voiceStores demo) address).filter fun value => value != 0).or
          ((Store.last? pack.init address).or
            (if Register.tempo = address then demo.tempo? else none))) := by
  have start : Store.last? [(Register.control, 3)] address =
      if Register.control = address then some 3 else none := Option.none_or
  have parts : compiled pack demo = (tempoStores demo ++ pack.init) ++
      (noteStores demo ++ sceneStores demo ++ sceneStores demo) ++ [(Register.control, 3)] := by
    simp only [compiled, List.append_assoc]
  rw [parts, Store.last?_append, start, Store.last?_append, last?_struckStores,
    Store.last?_append, last?_tempoStores]

/-- The settings of a pack leave alone what a demo overwrites: they set no other tempo than the
demo, and nothing but a rest where a voice of the demo rests. -/
structure Fits (pack : Pack) (demo : Demo) : Prop where
  tempo : ∀ bpm, demo.tempo? = some bpm →
    ∀ value, Store.last? pack.init Register.tempo = some value → value = bpm
  rests : ∀ voice text, demo.text? voice = some text →
    ∀ step : Nat, (Demo.decode text.toList)[step]? = some 0 →
      ∀ value, Store.last? pack.init (voice.base + step) = some value → value = 0

/-- A voice of a demo stores neither at the registers of the sequencer nor outside the region. -/
theorem range_of_voiceStores {address value : Int}
    (found : Store.last? (voiceStores demo) address = some value) :
    0x1000 ≤ address ∧ address < 0x1400 := by
  obtain ⟨voice, text, step, given, rfl, here⟩ := last?_voiceStores_eq_some_iff.mp found
  have bound := (List.getElem?_eq_some_iff.mp here).1
  rw [Demo.length_decode] at bound
  have range := voice.base_range
  omega

/-- No step of a voice is in the register of the tempo. -/
theorem last?_voiceStores_tempo (demo : Demo) :
    Store.last? (voiceStores demo) Register.tempo = none := by
  have tempo : Register.tempo = 0x1501 := rfl
  cases found : Store.last? (voiceStores demo) Register.tempo with
  | none => rfl
  | some value =>
    have range := range_of_voiceStores found
    omega

/-- Where the two leave the same bytes, the settings leave alone what the demo overwrites. -/
theorem fits_of_byteAt_eq (writable : Writable key name pack demo)
    (same : ∀ address, inRegion address = true →
      Store.byteAt (compiled pack demo) address = Store.byteAt (loaded pack demo) address) :
    Fits pack demo := by
  have control : Register.control = 0x1500 := rfl
  have tempo : Register.tempo = 0x1501 := rfl
  have initByte {address value : Int} (found : Store.last? pack.init address = some value) :
      0 ≤ value ∧ value ≤ 255 :=
    (writable.init_bytes _ (Store.mem_of_last? found)).2
  simp only [Store.byteAt, last?_compiled, last?_loaded] at same
  constructor
  · intro bpm given value set
    have here := same Register.tempo (by decide)
    have range := writable.bpm_range bpm given
    have least : tempoMin = 20 := rfl
    have most : tempoMax = 255 := rfl
    rw [last?_voiceStores_tempo, set, given, if_neg (by decide), if_pos rfl] at here
    exact byteOf_injective (initByte set) (by omega) here
  · intro voice text given step rest value set
    have found := last?_voiceStores_eq_some_iff.mpr ⟨voice, text, step, given, rfl, rest⟩
    have range := range_of_voiceStores found
    have here := same (voice.base + step) (inRegion_iff.mpr (by omega))
    rw [found, set, if_neg (by omega), if_neg (by omega)] at here
    exact byteOf_injective (initByte set) (by decide) here

/-- A rest that was left out is a zero all the same. -/
theorem byteAt_compiled_of_voice (fits : Fits pack demo) {address value : Int}
    (found : Store.last? (voiceStores demo) address = some value) :
    Store.byteAt (compiled pack demo) address = Store.byteAt (loaded pack demo) address := by
  have control : Register.control = 0x1500 := rfl
  have tempo : Register.tempo = 0x1501 := rfl
  have range := range_of_voiceStores found
  rw [Store.byteAt, Store.byteAt, last?_compiled, last?_loaded, found, if_neg (by omega),
    if_neg (by omega), Option.none_or, Option.none_or, Option.or_none]
  by_cases rest : value = 0
  · subst rest
    obtain ⟨voice, text, step, given, rfl, here⟩ := last?_voiceStores_eq_some_iff.mp found
    cases set : Store.last? pack.init (voice.base + step) with
    | none => rfl
    | some old =>
      obtain rfl := fits.rests voice text given step here old set
      rfl
  · rw [Option.filter_some, if_pos (by simpa using rest)]
    rfl

/-- At the tempo register the order of the settings and the demo's tempo makes no difference. -/
theorem byteAt_compiled_tempo (fits : Fits pack demo) :
    Store.byteAt (compiled pack demo) Register.tempo =
      Store.byteAt (loaded pack demo) Register.tempo := by
  rw [Store.byteAt, Store.byteAt, last?_compiled, last?_loaded, last?_voiceStores_tempo,
    Option.filter_none, Option.none_or, Option.none_or, if_pos rfl]
  cases given : demo.tempo? with
  | none => rw [Option.or_none, Option.none_or]
  | some bpm =>
    cases set : Store.last? pack.init Register.tempo with
    | none => rfl
    | some old =>
      obtain rfl := fits.tempo bpm given old set
      rfl

/-- A demo that fits its pack leaves the same bytes by either way. -/
theorem byteAt_compiled_of_fits (fits : Fits pack demo) (address : Int) :
    Store.byteAt (compiled pack demo) address = Store.byteAt (loaded pack demo) address := by
  cases found : Store.last? (voiceStores demo) address with
  | some value => exact byteAt_compiled_of_voice fits found
  | none =>
    by_cases tempo : Register.tempo = address
    · subst tempo
      exact byteAt_compiled_tempo fits
    · rw [Store.byteAt, Store.byteAt, last?_compiled, last?_loaded, found, if_neg tempo,
        Option.filter_none, Option.none_or, Option.none_or, Option.none_or, Option.or_none]

/-- The program of a demo leaves the region that loading the demo leaves, if and only if the
settings of the pack leave alone what the demo overwrites. -/
theorem image_compiled_eq_iff (writable : Writable key name pack demo) :
    Image.ofStores (compiled pack demo) = Image.ofStores (loaded pack demo) ↔ Fits pack demo := by
  rw [Image.ofStores_eq_iff]
  exact ⟨fits_of_byteAt_eq writable, fun fits address _ => byteAt_compiled_of_fits fits address⟩

/-- The file of a demo's text holds the region that the program of the demo leaves. -/
theorem overlay_source {catalog : Catalog} (options : Options)
    (packed : catalog.pack key = .ok pack) (found : catalog.demo key name = .ok demo)
    (writable : Writable key name pack demo)
    (target : Target.ofName? options.target.shown = some .intelHex)
    (rests : options.clearRests = false) :
    ∃ source text chunks, catalog.source key name = .ok source ∧
      (Compilation.ofSource options source).output = some text ∧
      IntelHex.read text.toList = .ok chunks ∧
      IntelHex.overlay regionStart.toNat (List.replicate regionSize 0) chunks =
        (Image.ofStores (compiled pack demo)).toList := by
  obtain ⟨source, written, clean, instructions⟩ := clean_source packed found writable
  have stores : Instruction.stores ((Compilation.programOf source).instructions
      options.clearRests) = compiled pack demo := by
    rw [rests, instructions, stores_program writable]
    rfl
  have output := Compilation.output_of_clean clean target
  have file : Target.emit .intelHex options.labels ((Compilation.programOf source).instructions
      options.clearRests) = IntelHex.regionFile (compiled pack demo) := by
    rw [← stores]
    rfl
  rw [file] at output
  have size : (Image.ofStores (compiled pack demo)).toList.length = regionSize := by simp
  have restored := IntelHex.overlay_occupied (Image.ofStores (compiled pack demo)).toList
    regionStart.toNat
  rw [size] at restored
  exact ⟨source, _, _, written, output, IntelHex.read_regionFile _, restored⟩

/-- The stores of a demo in a catalogue are the settings of its pack and its own. -/
theorem demoStores_eq {catalog : Catalog} (packed : catalog.pack key = .ok pack)
    (found : catalog.demo key name = .ok demo) :
    catalog.demoStores key name = .ok (pack.init ++ demo.stores) := by
  simp only [demoStores, packStores, packed, found]
  rfl

/-- The file of a demo's text holds the region that loading and starting the demo leaves, if and
only if the settings of its pack leave alone what the demo overwrites. -/
theorem source_image_eq_iff {catalog : Catalog} (options : Options)
    (packed : catalog.pack key = .ok pack) (found : catalog.demo key name = .ok demo)
    (writable : Writable key name pack demo)
    (target : Target.ofName? options.target.shown = some .intelHex)
    (rests : options.clearRests = false) :
    ∃ source text chunks stores, catalog.source key name = .ok source ∧
      (Compilation.ofSource options source).output = some text ∧
      IntelHex.read text.toList = .ok chunks ∧
      catalog.demoStores key name = .ok stores ∧
      (IntelHex.overlay regionStart.toNat (List.replicate regionSize 0) chunks =
        (Image.ofStores (stores ++ [(Register.control, 3)])).toList ↔ Fits pack demo) := by
  obtain ⟨source, text, chunks, written, output, read, restored⟩ :=
    overlay_source options packed found writable target rests
  refine ⟨source, text, chunks, _, written, output, read, demoStores_eq packed found, ?_⟩
  rw [restored, Array.toList_inj]
  exact image_compiled_eq_iff writable

/-- A bass line with notes and a silent lead is the same by either route. -/
theorem source_image_eq_acid :
    ∃ demo, builtIn.pack "TB-303" = .ok tb303 ∧ builtIn.demo "TB-303" "Acid Line" = .ok demo ∧
      Writable "TB-303" "Acid Line" tb303 demo ∧ Fits tb303 demo ∧
    ∃ source text chunks stores, builtIn.source "TB-303" "Acid Line" = .ok source ∧
      (Compilation.ofSource ⟨.text "hex", .text "", .number 120, false⟩ source).output = some text ∧
      IntelHex.read text.toList = .ok chunks ∧
      builtIn.demoStores "TB-303" "Acid Line" = .ok stores ∧
      IntelHex.overlay regionStart.toNat (List.replicate regionSize 0) chunks =
        (Image.ofStores (stores ++ [(Register.control, 3)])).toList := by
  have packed : builtIn.pack "TB-303" = .ok tb303 := rfl
  have found : builtIn.demo "TB-303" "Acid Line" = .ok ⟨some 130, [
      ("bass", "24..24..27..24.."), ("lead", "................")]⟩ := rfl
  have writable : Writable "TB-303" "Acid Line" tb303 ⟨some 130, [
      ("bass", "24..24..27..24.."), ("lead", "................")]⟩ := by
    refine ⟨by decide, by decide, by decide, by decide, by decide, fun bpm given => ?_⟩
    obtain rfl : 130 = bpm := Option.some.inj given
    decide
  have apart (voice : Voice) :
      ∀ step < stepCount, Store.last? tb303.init (voice.base + (step : Nat)) = none := by
    cases voice <;> decide
  have fits : Fits tb303 ⟨some 130, [
      ("bass", "24..24..27..24.."), ("lead", "................")]⟩ := by
    refine ⟨fun bpm given value set => ?_, fun voice text given step rest value set => ?_⟩
    · have unset : Store.last? tb303.init Register.tempo = none := by decide
      rw [unset] at set
      contradiction
    · have bound := (List.getElem?_eq_some_iff.mp rest).1
      rw [Demo.length_decode] at bound
      rw [apart voice step bound] at set
      contradiction
  obtain ⟨source, text, chunks, stores, written, output, read, demoStores, agree⟩ :=
    source_image_eq_iff ⟨.text "hex", .text "", .number 120, false⟩ packed found writable
      (by decide) rfl
  exact ⟨_, packed, found, writable, fits, source, text, chunks, stores, written, output, read,
    demoStores, agree.mpr fits⟩

/-- A pack whose settings strike a step at which the kick of its demo rests. -/
def struckRest : Pack where
  name := "N"
  category := "c"
  year := 1
  manufacturer := "m"
  description := "d"
  teaches := []
  init := [(0x1000, 5)]
  demos := [("P", ⟨none, [("kick", ".x..............")]⟩)]

/-- The program of a demo does not silence a step that the settings of its pack have struck. -/
theorem source_image_ne_struck_rest :
    Writable "K" "P" struckRest ⟨none, [("kick", ".x..............")]⟩ ∧
    ∃ source text chunks stores, Catalog.source [("K", struckRest)] "K" "P" = .ok source ∧
      (Compilation.ofSource ⟨.text "hex", .text "", .number 120, false⟩ source).output = some text ∧
      IntelHex.read text.toList = .ok chunks ∧
      demoStores [("K", struckRest)] "K" "P" = .ok stores ∧
      IntelHex.overlay regionStart.toNat (List.replicate regionSize 0) chunks ≠
        (Image.ofStores (stores ++ [(Register.control, 3)])).toList := by
  have packed : pack [("K", struckRest)] "K" = .ok struckRest := rfl
  have found : demo [("K", struckRest)] "K" "P" = .ok ⟨none, [("kick", ".x..............")]⟩ := rfl
  have writable : Writable "K" "P" struckRest ⟨none, [("kick", ".x..............")]⟩ := by
    refine ⟨by decide, by decide, by decide, by decide, by decide, fun bpm given => ?_⟩
    contradiction
  obtain ⟨source, text, chunks, written, output, read, restored⟩ :=
    overlay_source ⟨.text "hex", .text "", .number 120, false⟩ packed found writable
      (by decide) rfl
  refine ⟨writable, source, text, chunks, _, written, output, read, demoStores_eq packed found, ?_⟩
  rw [restored]
  intro same
  have fits := (image_compiled_eq_iff writable).mp (Array.toList_inj.mp same)
  have zero := fits.rests .kick ".x.............." (by decide) 0 (by decide) 5 (by decide)
  contradiction

end Catalog

end StepSequencer
