import StepSequencer.Pack

/-!
# The built-in packs
-/
namespace StepSequencer.Catalog

/-- The settings and demos of a drum machine with a deep kick. -/
def tr808 : Pack where
  name := "Roland TR-808"
  category := "drums"
  year := 1980
  manufacturer := "Roland"
  description :=
    "The 808. Hip-hop, electro, trap. That deep kick, crispy snare, iconic cowbell."
  teaches := ["Analog synthesis", "Envelope shaping", "Why 808 kick = sine + pitch envelope"]
  init := [(0x1010, 32), (0x1080, 127), (0x1030, 180), (0x1040, 120), (0x1090, 110), (0x1310, 4),
    (0x1320, 0), (0x1330, 100), (0x1050, 127), (0x1051, 90), (0x1052, 70), (0x1053, 100),
    (0x1054, 80)]
  demos := [
    ("Boom Bap", ⟨some 90, [
      ("kick", "x.....x...x....."),
      ("snare", "....x.......x..."),
      ("noise", "x.x.x.x.x.x.x.x.")]⟩),
    ("Trap", ⟨some 140, [
      ("kick", "x.....x.x......."),
      ("snare", "....x.......x..."),
      ("noise", "x.xxx.x.x.xxx.x.")]⟩),
    ("Electro", ⟨some 120, [
      ("kick", "x..x..x..x..x..."),
      ("snare", "....x.......x..."),
      ("noise", "x.x.x.x.x.x.x.x.")]⟩)]

/-- The settings and demos of a drum machine for house and techno. -/
def tr909 : Pack where
  name := "Roland TR-909"
  category := "drums"
  year := 1983
  manufacturer := "Roland"
  description :=
    "House and techno foundation. Punchier than 808, real hi-hat samples."
  teaches := ["Hybrid analog/digital", "Sample + synthesis", "Why house music exists"]
  init := [(0x1010, 41), (0x1080, 120), (0x1030, 200), (0x1040, 150), (0x1090, 115), (0x1310, 6),
    (0x1320, 0), (0x1330, 85), (0x1050, 120), (0x1051, 95), (0x1054, 75)]
  demos := [
    ("Four on the Floor", ⟨some 124, [
      ("kick", "x...x...x...x..."),
      ("snare", "....x.......x..."),
      ("noise", "x.x.x.x.x.x.x.x.")]⟩),
    ("Breakbeat", ⟨some 130, [
      ("kick", "x.....x...x....."),
      ("snare", "....x..x....x..."),
      ("noise", "x.x.x.x.x.x.x.x.")]⟩),
    ("Techno", ⟨some 138, [
      ("kick", "x...x...x...x..."),
      ("snare", "........x......."),
      ("noise", "..x...x...x...x.")]⟩)]

/-- The settings and demos of a digital drum machine. -/
def tr707 : Pack where
  name := "Roland TR-707"
  category := "drums"
  year := 1984
  manufacturer := "Roland"
  description :=
    "Digital drums. New Order, Depeche Mode. Clean, precise, 80s."
  teaches := ["PCM samples", "Digital audio", "8-bit sampling"]
  init := [(0x1010, 38), (0x1030, 220), (0x1040, 100), (0x1310, 3), (0x1050, 100), (0x1051, 100),
    (0x1054, 90)]
  demos := [
    ("New Wave", ⟨some 120, [
      ("kick", "x...x...x...x..."),
      ("snare", "....x.......x..."),
      ("noise", "x.x.x.x.x.x.x.x.")]⟩)]

/-- The settings and demos of an early drum machine. -/
def cr78 : Pack where
  name := "Roland CR-78"
  category := "drums"
  year := 1978
  manufacturer := "Roland"
  description :=
    "First programmable drum machine. Phil Collins \"In The Air Tonight\"."
  teaches := ["Early digital", "Step programming origins", "Why 16 steps?"]
  init := [(0x1010, 45), (0x1030, 160), (0x1040, 60), (0x1310, 2), (0x1050, 90), (0x1051, 80),
    (0x1054, 70)]
  demos := [
    ("In The Air", ⟨some 94, [
      ("kick", "x.......x......."),
      ("snare", "....x.......x..."),
      ("noise", "x...x...x...x...")]⟩)]

/-- The settings and demos of a bass synthesizer. -/
def tb303 : Pack where
  name := "Roland TB-303"
  category := "synth"
  year := 1981
  manufacturer := "Roland"
  description :=
    "Acid house. That squelchy, resonant bassline. Accents and slides."
  teaches := ["Resonant filters", "Accent = velocity", "Why acid sounds \"alive\""]
  init := [(0x1220, 40), (0x1210, 80), (0x1230, 127), (0x1120, 100)]
  demos := [
    ("Acid Line", ⟨some 130, [
      ("bass", "24..24..27..24.."),
      ("lead", "................")]⟩),
    ("Squelch", ⟨some 138, [
      ("bass", "24242424272424..")]⟩)]

/-- The settings and demos of a polyphonic synthesizer. -/
def juno106 : Pack where
  name := "Roland Juno-106"
  category := "synth"
  year := 1984
  manufacturer := "Roland"
  description :=
    "The poly synth. Lush pads, that chorus. Every 80s record."
  teaches := ["Chorus effect", "PWM synthesis", "Why unison = fat"]
  init := [(0x1110, 1), (0x1120, 90), (0x105C, 8), (0x105E, 12), (0x1220, 70), (0x1210, 30)]
  demos := [
    ("Synthwave Pad", ⟨some 100, [
      ("lead", "3C..3C..40..40.."),
      ("bass", "30......30......")]⟩)]

/-- The settings and demos of a genre of breakbeats. -/
def jungle : Pack where
  name := "Jungle / D&B"
  category := "genre"
  year := 1992
  manufacturer := "UK"
  description :=
    "Breakbeats at 160+. Amen break chopped. Bass pressure."
  teaches := ["Breakbeat programming", "Time-stretching", "Why 160+ BPM?"]
  init := [(0x1010, 42), (0x1030, 210), (0x1040, 150), (0x1310, 3), (0x1503, 0)]
  demos := [
    ("Amen", ⟨some 170, [
      ("kick", "x.....x.x......."),
      ("snare", "....x..x....x..x"),
      ("noise", "x.x.x.x.x.x.x.x.")]⟩)]

/-- The built-in packs. -/
def builtIn : Catalog :=
  [("TR-808", tr808), ("TR-909", tr909), ("TR-707", tr707),
    ("CR-78", cr78), ("TB-303", tb303), ("JUNO-106", juno106),
    ("Jungle", jungle)]

end StepSequencer.Catalog
