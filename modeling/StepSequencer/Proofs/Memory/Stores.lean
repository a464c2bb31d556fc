import StepSequencer.Memory.Image

/-!
# What stores leave behind

Memory after stores in order is determined address by address: an address holds the value of the
last store there, or what it held before. `Store.last?` is that value. Images are compared through
it, so no proof about them has to follow the order of the stores.
-/
namespace StepSequencer

/-- The bounds of the audio region. -/
theorem inRegion_iff {address : Int} :
    inRegion address = true ↔ 0x1000 ≤ address ∧ address < 0x1600 := decide_eq_true_iff

/-- An address belongs to one voice at most. -/
theorem Voice.eq_of_base {voice other : Voice} {address : Int}
    (here : voice.base ≤ address ∧ address < voice.base + stepCount)
    (there : other.base ≤ address ∧ address < other.base + stepCount) : voice = other := by
  have count : stepCount = 16 := rfl
  cases voice <;> cases other <;> simp only [base, reduceCtorEq] at * <;> omega

/-- The addresses of voices are no registers of the sequencer. -/
theorem Voice.base_range (voice : Voice) :
    0x1000 ≤ voice.base ∧ voice.base + stepCount ≤ 0x1400 := by
  cases voice <;> decide

namespace Instruction

/-- Instructions in a row make their stores one after the other. -/
theorem stores_append (first second : List Instruction) :
    stores (first ++ second) = stores first ++ stores second :=
  List.filterMap_append

/-- What items give in a row makes its stores item by item. -/
theorem stores_flatMap {α : Type} (items : List α) (instructions : α → List Instruction) :
    stores (items.flatMap instructions) = items.flatMap fun item => stores (instructions item) :=
  List.filterMap_flatMap

end Instruction

/-- The byte of a byte's number is the byte. -/
@[simp] theorem byteOf_toNat (b : UInt8) : byteOf (b.toNat : Int) = b := by
  have bound : b.toNat < 256 := b.toNat_lt
  have small : (b.toNat : Int) % 256 = (b.toNat : Int) := by omega
  rw [byteOf, small, Int.toNat_natCast, UInt8.ofNat_toNat]

/-- Numbers between 0 and 255 have a byte each. -/
theorem byteOf_injective {left right : Int} (leftByte : 0 ≤ left ∧ left ≤ 255)
    (rightByte : 0 ≤ right ∧ right ≤ 255) (same : byteOf left = byteOf right) : left = right := by
  have leftExact : (left % 256).toNat < 256 := by omega
  have rightExact : (right % 256).toNat < 256 := by omega
  have numbers := congrArg UInt8.toNat same
  rw [byteOf, byteOf, UInt8.toNat_ofNat_of_lt' leftExact, UInt8.toNat_ofNat_of_lt' rightExact]
    at numbers
  omega

namespace Store

/-- The value of the last store at an address. -/
def last? : List Store → Int → Option Int
  | [], _ => none
  | store :: rest, address =>
    (last? rest address).or (if store.1 = address then some store.2 else none)

/-- Later stores count before earlier ones. -/
theorem last?_append (first second : List Store) (address : Int) :
    last? (first ++ second) address = (last? second address).or (last? first address) := by
  induction first with
  | nil => rw [List.nil_append, last?, Option.or_none]
  | cons store first ih => rw [List.cons_append, last?, ih, last?, Option.or_assoc]

/-- No last store means no store. -/
theorem last?_eq_none_iff {stores : List Store} {address : Int} :
    last? stores address = none ↔ ∀ store ∈ stores, store.1 ≠ address := by
  induction stores with
  | nil => simp [last?]
  | cons store stores ih =>
    rw [last?, Option.or_eq_none_iff, ih, List.forall_mem_cons]
    constructor
    · rintro ⟨later, here⟩
      refine ⟨fun same => ?_, later⟩
      rw [if_pos same] at here
      contradiction
    · rintro ⟨here, later⟩
      exact ⟨later, if_neg here⟩

/-- The last store at an address is one of the stores. -/
theorem mem_of_last? {stores : List Store} {address value : Int}
    (found : last? stores address = some value) : (address, value) ∈ stores := by
  induction stores with
  | nil => contradiction
  | cons store stores ih =>
    rw [last?, Option.or_eq_some_iff] at found
    rcases found with later | ⟨_, here⟩
    · exact List.mem_cons_of_mem store (ih later)
    · split at here
      · next same =>
        obtain rfl : store.2 = value := Option.some.inj here
        rw [← same]
        exact List.mem_cons_self
      · contradiction

/-- A value that is stored at an address is the last one there, if no other value is. -/
theorem last?_of_mem {stores : List Store} {address value : Int}
    (member : (address, value) ∈ stores)
    (unique : ∀ store ∈ stores, store.1 = address → store.2 = value) :
    last? stores address = some value := by
  cases found : last? stores address with
  | none => exact absurd rfl (last?_eq_none_iff.mp found _ member)
  | some other => rw [← unique _ (mem_of_last? found) rfl]

/-- Leaving out the stores at certain addresses keeps the last store at any other address. -/
theorem last?_filter_address (keep : Int → Bool) (stores : List Store) (address : Int) :
    last? (stores.filter fun store => keep store.1) address =
      if keep address then last? stores address else none := by
  induction stores with
  | nil => simp [last?]
  | cons store stores ih =>
    by_cases same : store.1 = address
    · by_cases kept : keep address = true
      · rw [List.filter_cons_of_pos (by rw [same]; exact kept), last?, last?, ih, if_pos kept,
          if_pos kept]
      · rw [List.filter_cons_of_neg (by rw [same]; exact kept), ih, if_neg kept, if_neg kept]
    · have skip : last? (store :: stores) address = last? stores address := by
        rw [last?, if_neg same, Option.or_none]
      rw [skip, ← ih, List.filter_cons]
      split
      · rw [last?, if_neg same, Option.or_none]
      · rfl

/-- The last store of several items is that of the last item that stores anything. -/
theorem last?_flatMap {α : Type} (items : List α) (stores : α → List Store) (address : Int) :
    last? (items.flatMap stores) address =
      (items.filterMap fun item => last? (stores item) address).getLast? := by
  induction items with
  | nil => rfl
  | cons item items ih =>
    rw [List.flatMap_cons, last?_append, ih, List.filterMap_cons]
    cases last? (stores item) address with
    | none => exact Option.or_none
    | some value =>
      rw [List.getLast?_cons]
      cases (items.filterMap fun item => last? (stores item) address).getLast? <;> rfl

/-- Where no item stores anything, all of them store nothing. -/
theorem last?_flatMap_eq_none {α : Type} {items : List α} {stores : α → List Store} {address : Int}
    (quiet : ∀ item ∈ items, last? (stores item) address = none) :
    last? (items.flatMap stores) address = none := by
  rw [last?_flatMap, List.filterMap_eq_nil_iff.mpr quiet]
  rfl

/-- Where all items but one store nothing, the stores of that one count. -/
theorem last?_flatMap_of_mem {α : Type} {items : List α} {stores : α → List Store} {item : α}
    {address : Int} (member : item ∈ items)
    (apart : ∀ other ∈ items, other ≠ item → last? (stores other) address = none) :
    last? (items.flatMap stores) address = last? (stores item) address := by
  induction items with
  | nil => exact absurd member List.not_mem_nil
  | cons first items ih =>
    rw [List.flatMap_cons, last?_append]
    have later := fun other known => apart other (List.mem_cons_of_mem first known)
    by_cases inside : item ∈ items
    · rw [ih inside later]
      by_cases same : first = item
      · rw [same, Option.or_self]
      · rw [apart first List.mem_cons_self same, Option.or_none]
    · have here : first = item := by
        rcases List.mem_cons.mp member with rfl | tail
        · rfl
        · exact absurd tail inside
      have none := last?_flatMap_eq_none fun other known =>
        later other known fun same => inside (same ▸ known)
      rw [none, here, Option.none_or]

/-- The byte that stores leave at an address of zeroed memory. -/
def byteAt (stores : List Store) (address : Int) : UInt8 :=
  ((last? stores address).map byteOf).getD 0

/-- Stores of values at addresses in a row. -/
def row (base : Int) : List Int → List Store
  | [] => []
  | value :: values => (base, value) :: row (base + 1) values

/-- Stores in a row go to the base and the number of each value. -/
theorem row_eq_zipIdx (base : Int) (values : List Int) (start : Nat) :
    row (base + start) values =
      (values.zipIdx start).map fun (value, step) => (base + (step : Nat), value) := by
  induction values generalizing start with
  | nil => rfl
  | cons value values ih =>
    have next : base + start + 1 = base + ((start + 1 : Nat) : Int) := by omega
    rw [row, next, ih]
    rfl

/-- A row has no store before its first address. -/
theorem last?_row_before (base : Int) (values : List Int) {address : Int}
    (before : address < base) : last? (row base values) address = none := by
  induction values generalizing base with
  | nil => rfl
  | cons value values ih =>
    rw [row, last?, ih (base + 1) (by omega), if_neg (by omega), Option.or_none]

/-- The value at each place of a row is the last one stored there. -/
theorem last?_row (base : Int) (values : List Int) (place : Nat) :
    last? (row base values) (base + place) = values[place]? := by
  induction values generalizing base place with
  | nil => rfl
  | cons value values ih =>
    cases place with
    | zero =>
      rw [row, last?, last?_row_before (base + 1) values (by omega), if_pos (by omega)]
      rfl
    | succ place =>
      have next : base + ((place + 1 : Nat) : Int) = base + 1 + place := by omega
      rw [row, last?, next, ih, if_neg (by omega), Option.or_none, List.getElem?_cons_succ]

/-- A row has stores at its own addresses only. -/
theorem row_addresses (base : Int) (values : List Int) :
    ∀ store ∈ row base values, base ≤ store.1 ∧ store.1 < base + values.length := by
  induction values generalizing base with
  | nil => exact fun store member => absurd member List.not_mem_nil
  | cons value values ih =>
    intro store member
    rw [List.length_cons]
    rcases List.mem_cons.mp member with rfl | later
    · constructor <;> dsimp only <;> omega
    · have bounds := ih (base + 1) store later
      omega

/-- Leaving out the zeros of a row leaves the other values where they are. -/
theorem last?_row_nonzero (base : Int) (values : List Int) (address : Int) :
    last? ((row base values).filter fun store => store.2 != 0) address =
      (last? (row base values) address).filter fun value => value != 0 := by
  induction values generalizing base with
  | nil => rfl
  | cons value values ih =>
    rw [row, List.filter_cons, last?]
    by_cases here : base = address
    · have later := last?_row_before (base + 1) values (show address < base + 1 by omega)
      have filtered := ih (base + 1)
      rw [later, Option.filter_none] at filtered
      rw [later, if_pos here, Option.none_or, Option.filter_some]
      split
      · rw [last?, filtered, if_pos here, Option.none_or]
      · exact filtered
    · rw [if_neg here, Option.or_none, ← ih (base + 1)]
      split
      · rw [last?, if_neg here, Option.or_none]
      · rfl

end Store

namespace Image

/-- A store changes the byte at its own address and no other. -/
theorem getD_store {image : Array UInt8} (sized : image.size = regionSize) (write : Store)
    {place : Nat} (inside : place < regionSize) :
    (store image write).getD place 0 =
      if write.1 = regionStart + place then byteOf write.2 else image.getD place 0 := by
  have origin : regionStart = 0x1000 := rfl
  have size : regionSize = 0x600 := rfl
  simp only [Array.getD_eq_getD_getElem?]
  unfold store
  split
  · next within =>
    have range := inRegion_iff.mp within
    rw [Array.getElem?_setIfInBounds]
    by_cases here : write.1 = regionStart + place
    · rw [if_pos here, if_pos (by omega), if_pos (by omega)]
      rfl
    · rw [if_neg here, if_neg (by omega)]
  · next outside =>
    rw [if_neg]
    intro same
    exact outside (inRegion_iff.mpr (by omega))

/-- After stores in order, a byte of the region is that of the last store at its address. -/
theorem getD_foldl_store (stores : List Store) {image : Array UInt8}
    (sized : image.size = regionSize) {place : Nat} (inside : place < regionSize) :
    (stores.foldl store image).getD place 0 =
      ((Store.last? stores (regionStart + place)).map byteOf).getD (image.getD place 0) := by
  induction stores generalizing image with
  | nil => rfl
  | cons write stores ih =>
    have kept : (store image write).size = regionSize := by rw [size_store, sized]
    rw [List.foldl_cons, ih kept, getD_store sized write inside, Store.last?]
    cases Store.last? stores (regionStart + place) with
    | some value => rfl
    | none => split <;> rfl

/-- A byte of the image of stores. -/
theorem getD_ofStores (stores : List Store) {place : Nat} (inside : place < regionSize) :
    (ofStores stores).getD place 0 = Store.byteAt stores (regionStart + place) := by
  have zero : empty.getD place 0 = 0 := by
    simp [empty, Array.getD_eq_getD_getElem?, inside]
  have sized : empty.size = regionSize := Array.size_replicate ..
  rw [ofStores, getD_foldl_store stores sized inside, zero, Store.byteAt]

/-- The byte of the image of stores at an address of the region. -/
theorem getElem?_ofStores (stores : List Store) {address : Int} (inside : inRegion address = true) :
    (ofStores stores)[(address - 0x1000).toNat]? = some (Store.byteAt stores address) := by
  have range := inRegion_iff.mp inside
  have origin : regionStart = 0x1000 := rfl
  have size : regionSize = 0x600 := rfl
  have place : (address - 0x1000).toNat < regionSize := by omega
  have byte := getD_ofStores stores place
  rw [show regionStart + ((address - 0x1000).toNat : Int) = address by omega] at byte
  rw [← byte, Array.getD_eq_getD_getElem?]
  simp [place]

/-- Two lists of stores have one image exactly when they leave the same byte at every address of
the region. -/
theorem ofStores_eq_iff (first second : List Store) :
    ofStores first = ofStores second ↔
      ∀ address, inRegion address = true →
        Store.byteAt first address = Store.byteAt second address := by
  have origin : regionStart = 0x1000 := rfl
  have size : regionSize = 0x600 := rfl
  constructor
  · intro same address within
    have range := inRegion_iff.mp within
    obtain ⟨place, split⟩ := Int.eq_ofNat_of_zero_le (show 0 ≤ address - regionStart by omega)
    have inside : place < regionSize := by omega
    have whole : address = regionStart + place := by omega
    rw [whole, ← getD_ofStores first inside, ← getD_ofStores second inside, same]
  · intro bytes
    apply Array.ext
    · rw [size_ofStores, size_ofStores]
    · intro place left right
      have inside : place < regionSize := by rwa [size_ofStores] at left
      have here := bytes (regionStart + place) (inRegion_iff.mpr (by omega))
      rw [← getD_ofStores first inside, ← getD_ofStores second inside] at here
      simpa [Array.getD_eq_getD_getElem?, inside] using here

end Image

end StepSequencer
