import Swirl.Lib.InPlace
import Swirl.Input.Keyboard

set_option autoImplicit false

/-! # The arrays of the pressed keys

`state_erase_key`, `state_add_key` and `update_shortcut_state` on the two arrays they write: an
access outside of them has no result. The arrays always hold the list that `ShortcutState` keeps,
cell by cell, and the cells behind are cleared.
-/

namespace Swirl

open Lib

/-- A cell of an array is written. -/
def writeCell {α : Type} {n : Nat} (xs : Vector α n) (i : Nat) (x : α) : Option (Vector α n) :=
  if h : i < n then some (xs.set i x h) else none

/-- `pressed_keys` and `pressed_keycodes` -/
structure PressedArrays where
  pressedKeys : Vector Nat pressedKeysCap
  pressedKeycodes : Vector Nat pressedKeysCap
  deriving DecidableEq

/-- `struct sway_shortcut_state` -/
structure ShortcutMemory extends PressedArrays where
  lastKeycode : Nat
  lastRawModifiers : Nat
  npressed : Nat
  currentKey : Nat
  deriving DecidableEq

namespace PressedArrays

/-- The entry of one cell is copied to another. -/
def copy (a : PressedArrays) (i j : Nat) : Option PressedArrays := do
  let key ← a.pressedKeys[i]?
  let pressedKeys ← writeCell a.pressedKeys j key
  let keycode ← a.pressedKeycodes[i]?
  let pressedKeycodes ← writeCell a.pressedKeycodes j keycode
  return { pressedKeys, pressedKeycodes }

/-- The entry of a cell is copied to an earlier one. -/
def moveDown (a : PressedArrays) (i j : Nat) : Option PressedArrays :=
  if j < i then a.copy i j else some a

/-- An entry is written. -/
def write (a : PressedArrays) (i key keycode : Nat) : Option PressedArrays := do
  let pressedKeys ← writeCell a.pressedKeys i key
  let pressedKeycodes ← writeCell a.pressedKeycodes i keycode
  return { pressedKeys, pressedKeycodes }

/-- The first loop of `state_erase_key`, for a number of cells from `i` on: where the next entry
goes, and whether the keycode was found. -/
def eraseLoop (keycode : Nat) : Nat → Nat → Nat → Bool → PressedArrays →
    Option (Nat × Bool × PressedArrays)
  | 0, _, j, found, a => some (j, found, a)
  | n + 1, i, j, found, a => do
      let a ← a.moveDown i j
      let code ← a.pressedKeycodes[i]?
      if code ≠ keycode then eraseLoop keycode n (i + 1) (j + 1) found a
      else eraseLoop keycode n (i + 1) j true a

/-- The second loop of `state_erase_key`, with `npressed`. -/
def clearLoop (j : Nat) : Nat → PressedArrays → Option (Nat × PressedArrays)
  | 0, a => some (0, a)
  | n + 1, a =>
      if j < n + 1 then do
        let a ← a.write n 0 0
        clearLoop j n a
      else some (n + 1, a)

/-- The first loop of `state_add_key`, for a number of cells from `i` on. -/
def insertLoop (keyId : Nat) (a : PressedArrays) : Nat → Nat → Option Nat
  | 0, i => some i
  | n + 1, i => do
      let key ← a.pressedKeys[i]?
      if key < keyId then insertLoop keyId a n (i + 1) else some i

/-- The second loop of `state_add_key`, with `j`. -/
def shiftLoop (i : Nat) : Nat → PressedArrays → Option PressedArrays
  | 0, a => some a
  | j + 1, a =>
      if i < j + 1 then do
        let a ← a.copy j (j + 1)
        shiftLoop i j a
      else some a

end PressedArrays

namespace ShortcutMemory

/-- A state that `calloc` has cleared. -/
def empty : ShortcutMemory :=
  { pressedKeys := Vector.replicate pressedKeysCap 0
    pressedKeycodes := Vector.replicate pressedKeysCap 0
    lastKeycode := 0, lastRawModifiers := 0, npressed := 0, currentKey := 0 }

/-- `state_erase_key` -/
def stateEraseKey (state : ShortcutMemory) (keycode : Nat) : Option (Bool × ShortcutMemory) := do
  let (j, found, a) ← state.eraseLoop keycode state.npressed 0 0 false
  let (npressed, a) ← a.clearLoop j state.npressed
  return (found, { state with toPressedArrays := a, npressed, currentKey := 0 })

/-- `state_add_key` -/
def stateAddKey (state : ShortcutMemory) (keycode keyId : Nat) : Option ShortcutMemory :=
  if pressedKeysCap ≤ state.npressed then some state
  else do
    let i ← state.insertLoop keyId state.npressed 0
    let a ← state.shiftLoop i state.npressed
    let a ← a.write i keyId keycode
    return { state with
      toPressedArrays := a, npressed := state.npressed + 1, currentKey := keyId }

/-- The modifiers of an event are recorded; if the key before it was a modifier, that key is
erased. -/
def eraseModifier (state : ShortcutMemory) (rawModifiers : Nat) : Option ShortcutMemory :=
  let lastKeyWasAModifier := decide (rawModifiers ≠ state.lastRawModifiers)
  let state := { state with lastRawModifiers := rawModifiers }
  if lastKeyWasAModifier && decide (state.lastKeycode ≠ 0) then
    (stateEraseKey state state.lastKeycode).map Prod.snd
  else some state

/-- `update_shortcut_state` -/
def updateShortcutState (state : ShortcutMemory) (keycode : Nat) (pressed : Bool)
    (newKey rawModifiers : Nat) : Option (Bool × ShortcutMemory) := do
  let state ← state.eraseModifier rawModifiers
  if pressed then do
    let state ← stateAddKey state keycode newKey
    return (false, { state with lastKeycode := keycode })
  else stateEraseKey state keycode

end ShortcutMemory

/-! ## What the cells hold -/

theorem writeCell_spec {α : Type} {n : Nat} (xs : Vector α n) {i : Nat} (hi : i < n) (x : α) :
    ∃ ys, writeCell xs i x = some ys ∧ ys.toList = xs.toList.set i x :=
  ⟨xs.set i x hi, dif_pos hi, Vector.toList_set hi⟩

theorem zip_set {α β : Type} {l : List α} {l' : List β} {i : Nat} (x : α) (y : β) :
    (l.set i x).zip (l'.set i y) = (l.zip l').set i (x, y) := by
  induction l generalizing l' i with
  | nil => rfl
  | cons a l ih =>
      cases l' with
      | nil => cases i <;> rfl
      | cons b l' =>
          cases i with
          | zero => rfl
          | succ i =>
              show (a, b) :: (l.set i x).zip (l'.set i y) = (a, b) :: (l.zip l').set i (x, y)
              rw [ih]

namespace PressedArrays

/-- The cells of both arrays, side by side. -/
def cells (a : PressedArrays) : List (Nat × Nat) :=
  a.pressedKeys.toList.zip a.pressedKeycodes.toList

variable {a : PressedArrays} {i j n : Nat} {e : Nat × Nat}

theorem cells_length (a : PressedArrays) : a.cells.length = pressedKeysCap := by
  rw [cells, List.length_zip, Vector.length_toList, Vector.length_toList, min_self]

theorem cells_getElem? :
    a.cells[i]? = some e ↔ a.pressedKeys[i]? = some e.1 ∧ a.pressedKeycodes[i]? = some e.2 := by
  rw [cells, List.getElem?_zip_eq_some, Vector.getElem?_toList, Vector.getElem?_toList]

/-- A write inside of the arrays succeeds. -/
theorem write_spec (hi : i < pressedKeysCap) (key keycode : Nat) :
    ∃ b, a.write i key keycode = some b ∧ b.cells = a.cells.set i (key, keycode) := by
  obtain ⟨keys, hkeys, hkeys'⟩ := writeCell_spec a.pressedKeys hi key
  obtain ⟨codes, hcodes, hcodes'⟩ := writeCell_spec a.pressedKeycodes hi keycode
  refine ⟨⟨keys, codes⟩, ?_, ?_⟩
  · rw [write, hkeys, hcodes]
    rfl
  · rw [cells, hkeys', hcodes', zip_set]
    rfl

theorem copy_spec (he : a.cells[i]? = some e) (hj : j < pressedKeysCap) :
    ∃ b, a.copy i j = some b ∧ b.cells = a.cells.set j e := by
  obtain ⟨hkey, hcode⟩ := cells_getElem?.1 he
  obtain ⟨b, hb, hcells⟩ := @write_spec a j hj e.1 e.2
  refine ⟨b, ?_, hcells⟩
  rw [← hb, copy, hkey, hcode]
  rfl

/-! ## The loops -/

/-- The cells that stay when a keycode is erased. -/
def stays (keycode : Nat) (e : Nat × Nat) : Bool := decide (e.2 ≠ keycode)

/-- The cell at `i` goes to `j`. -/
theorem moved_spec {l : List (Nat × Nat)} {p : Nat × Nat → Bool} (h : Compacting p l i j a.cells)
    (he : l[i]? = some e) : ∃ b, a.moveDown i j = some b ∧
      b.cells = Compacting.moved i j e a.cells := by
  unfold moveDown Compacting.moved
  split
  next hlt =>
    have hi := h.lt_length he
    rw [cells_length] at hi
    exact copy_spec (h.getElem?.trans he) (hlt.trans hi)
  next => exact ⟨a, rfl, rfl⟩

/-- **The first loop of `state_erase_key`** keeps the cells in their order. -/
theorem eraseLoop_spec {keycode : Nat} {l : List (Nat × Nat)} {found : Bool}
    (h : Compacting (stays keycode) l i j a.cells) (hn : i + n ≤ l.length) :
    ∃ k b, eraseLoop keycode n i j found a =
        some (k, found || ((l.drop i).take n).any (fun e => decide (e.2 = keycode)), b) ∧
      Compacting (stays keycode) l (i + n) k b.cells := by
  induction n generalizing i j found a with
  | zero => exact ⟨j, a, by rw [eraseLoop, List.take_zero, List.any_nil, Bool.or_false], h⟩
  | succ n ih =>
      have hi : i < l.length := by omega
      have he : l[i]? = some l[i] := List.getElem?_eq_getElem hi
      obtain ⟨b, hb, hcells⟩ := moved_spec h he
      -- the copy is made before the test, but never to the cell that is tested
      have hcode := (cells_getElem?.1 ((congrArg (·[i]?) hcells).trans (h.moved_getElem? he))).2
      have hany : ((l.drop i).take (n + 1)).any (fun e => decide (e.2 = keycode)) =
          (decide (l[i].2 = keycode) ||
            ((l.drop (i + 1)).take n).any fun e => decide (e.2 = keycode)) := by
        rw [List.drop_eq_getElem_cons hi, List.take_succ_cons, List.any_cons]
      rw [eraseLoop, hb, Option.bind_eq_bind, Option.bind_some, hcode, Option.bind_eq_bind,
        Option.bind_some, hany, show i + (n + 1) = i + 1 + n by omega]
      by_cases hkey : l[i].2 = keycode
      · have hleave : stays keycode l[i] = false := decide_eq_false (not_not_intro hkey)
        obtain ⟨k, c, hrun, hdone⟩ := @ih b (i + 1) j true (hcells ▸ h.leave he hleave) (by omega)
        refine ⟨k, c, ?_, hdone⟩
        rw [if_neg (not_not_intro hkey), hrun, decide_eq_true hkey, Bool.true_or,
          Bool.or_true]
      · have hkeep : stays keycode l[i] = true := decide_eq_true hkey
        rw [if_pos hkey, decide_eq_false hkey, Bool.false_or]
        exact ih (hcells ▸ h.keep he hkeep) (by omega)

/-- **The second loop of `state_erase_key`** clears the cells from the end down to `j`. -/
theorem clearLoop_spec (hj : j ≤ n) (hn : n ≤ pressedKeysCap) :
    ∃ b, clearLoop j n a = some (j, b) ∧
      b.cells = a.cells.take j ++ List.replicate (n - j) (0, 0) ++ a.cells.drop n := by
  induction n generalizing a with
  | zero =>
      obtain rfl := Nat.le_zero.1 hj
      exact ⟨a, rfl, rfl⟩
  | succ n ih =>
      rw [clearLoop]
      split
      next hlt =>
        obtain ⟨b, hb, hcells⟩ := @write_spec a n hn 0 0
        obtain ⟨c, hc, hclear⟩ := @ih b (Nat.le_of_lt_succ hlt) (Nat.le_of_succ_le hn)
        refine ⟨c, ?_, ?_⟩
        · rw [hb]
          exact hc
        · rw [hclear, hcells]
          exact clear_take (Nat.le_of_lt_succ hlt) (by rw [cells_length]; exact hn)
      next hnot =>
        obtain rfl : j = n + 1 := le_antisymm hj (not_lt.1 hnot)
        refine ⟨a, rfl, ?_⟩
        rw [Nat.sub_self, List.replicate_zero, List.append_nil, List.take_append_drop]

/-- **The first loop of `state_add_key`** passes the cells with smaller ids. -/
theorem insertLoop_spec (keyId : Nat) (hn : i + n ≤ pressedKeysCap) :
    insertLoop keyId a n i = some
      (i + (((a.cells.drop i).take n).takeWhile fun e => decide (e.1 < keyId)).length) := by
  induction n generalizing i with
  | zero => rfl
  | succ n ih =>
      have hi : i < a.cells.length := by
        rw [cells_length]
        omega
      have hkey := (cells_getElem?.1 (List.getElem?_eq_getElem hi)).1
      rw [insertLoop, hkey, Option.bind_eq_bind, Option.bind_some, List.drop_eq_getElem_cons hi,
        List.take_succ_cons]
      split
      next hlt =>
        rw [ih (by omega), List.takeWhile_cons_of_pos (by simpa using hlt), List.length_cons]
        congr 1
        omega
      next hnot =>
        rw [List.takeWhile_cons_of_neg (by simpa using hnot), List.length_nil, Nat.add_zero]

/-- **The second loop of `state_add_key`** moves the cells from `i` on up. -/
theorem shiftLoop_spec {l : List (Nat × Nat)} (h : Opening l n j a.cells) (hn : n < l.length)
    (hj : j ≤ n) (hi : i ≤ j) : ∃ b, shiftLoop i j a = some b ∧ Opening l n i b.cells := by
  induction j generalizing a with
  | zero =>
      obtain rfl := Nat.le_zero.1 hi
      exact ⟨a, rfl, h⟩
  | succ j ih =>
      rw [shiftLoop]
      split
      next hlt =>
        -- the array is not full, so that there is a cell for the last entry
        have he : l[j]? = some l[j] := List.getElem?_eq_getElem (by omega)
        have hcap : j + 1 < pressedKeysCap := by
          have hlen := h.length
          rw [cells_length] at hlen
          omega
        obtain ⟨b, hb, hcells⟩ := copy_spec (h.getElem?.trans he) hcap
        rw [hb]
        refine ih ?_ (Nat.le_of_succ_le hj) (Nat.le_of_lt_succ hlt)
        rw [hcells]
        exact h.move hn hj he
      next hnot =>
        obtain rfl : i = j + 1 := le_antisymm hi (not_lt.1 hnot)
        exact ⟨a, rfl, h⟩

end PressedArrays

/-! ## The arrays hold the list -/

/-- The arrays hold the pressed keys of a state, and nothing else. -/
structure ShortcutMemory.Represents (m : ShortcutMemory) (st : ShortcutState) : Prop where
  cells : m.cells = padded pressedKeysCap (0, 0) st.pressed
  npressed : m.npressed = st.pressed.length
  cap : st.pressed.length ≤ pressedKeysCap
  lastKeycode : m.lastKeycode = st.lastKeycode
  lastRawModifiers : m.lastRawModifiers = st.lastRawModifiers
  currentKey : m.currentKey = st.currentKey

/-- What the modifiers of an event make of the list. -/
def ShortcutState.eraseModifier (st : ShortcutState) (rawModifiers : Nat) : ShortcutState :=
  if decide (rawModifiers ≠ st.lastRawModifiers) && decide (st.lastKeycode ≠ 0) then
    (stateEraseKey { st with lastRawModifiers := rawModifiers } st.lastKeycode).2
  else { st with lastRawModifiers := rawModifiers }

namespace ShortcutMemory.Represents

variable {m : ShortcutMemory} {st : ShortcutState}

theorem empty : ShortcutMemory.empty.Represents ShortcutState.empty :=
  ⟨by decide, rfl, Nat.zero_le _, rfl, rfl, rfl⟩

theorem stateEraseKey (h : m.Represents st) (keycode : Nat) :
    ∃ m', m.stateEraseKey keycode = some ((Swirl.stateEraseKey st keycode).1, m') ∧
      m'.Represents (Swirl.stateEraseKey st keycode).2 := by
  have hcap := h.cap
  have hstart : Compacting (PressedArrays.stays keycode)
      (padded pressedKeysCap (0, 0) st.pressed) 0 0 m.cells := h.cells ▸ Compacting.start _ _
  have hlen : 0 + st.pressed.length ≤ (padded pressedKeysCap (0, 0) st.pressed).length := by
    rw [padded_length hcap]
    omega
  obtain ⟨k, a, hrun, hcompact⟩ :=
    @PressedArrays.eraseLoop_spec _ 0 0 st.pressed.length keycode _ false hstart hlen
  rw [Nat.zero_add] at hcompact
  rw [List.drop_zero, take_padded, Bool.false_or] at hrun
  -- the loop leaves copies behind the entries that stay, and those are cleared
  obtain ⟨hk, hcells⟩ := hcompact.done hcap
  have hle : k ≤ st.pressed.length := hcompact.le
  obtain ⟨b, hclear, hcells'⟩ := @PressedArrays.clearLoop_spec a k _ hle hcap
  refine ⟨{ m with toPressedArrays := b, npressed := k, currentKey := 0 }, ?_, ?_⟩
  · rw [ShortcutMemory.stateEraseKey, h.npressed, hrun]
    show (PressedArrays.clearLoop k st.pressed.length a).bind _ = _
    rw [hclear]
    rfl
  · exact ⟨hcells'.trans hcells, hk, (List.length_filter_le _ _).trans hcap, h.lastKeycode,
      h.lastRawModifiers, rfl⟩

theorem stateAddKey (h : m.Represents st) (keycode keyId : Nat) :
    ∃ m', m.stateAddKey keycode keyId = some m' ∧
      m'.Represents (Swirl.stateAddKey st keycode keyId) := by
  have hcap := h.cap
  unfold ShortcutMemory.stateAddKey Swirl.stateAddKey
  rw [h.npressed]
  split
  next => exact ⟨m, rfl, h⟩
  next hroom =>
    have hlt := not_le.1 hroom
    have hlen : (padded pressedKeysCap (0, 0) st.pressed).length = pressedKeysCap :=
      padded_length hcap
    -- the gap is opened behind the smaller ids, and filled
    set smaller := st.pressed.takeWhile fun e => decide (e.1 < keyId) with hsmaller
    have hle : smaller.length ≤ st.pressed.length := (List.takeWhile_prefix _).length_le
    have hplace := @PressedArrays.insertLoop_spec m.toPressedArrays 0 st.pressed.length keyId
      (by rw [Nat.zero_add]; exact hcap)
    rw [h.cells, List.drop_zero, take_padded, Nat.zero_add] at hplace
    have hstart : Opening (padded pressedKeysCap (0, 0) st.pressed) st.pressed.length
        st.pressed.length m.cells := h.cells ▸ Opening.start _ _
    obtain ⟨a, hshift, hopening⟩ :=
      PressedArrays.shiftLoop_spec hstart (hlt.trans_eq hlen.symm) le_rfl hle
    obtain ⟨b, hwrite, hcells⟩ :=
      @PressedArrays.write_spec a smaller.length (hle.trans_lt hlt) keyId keycode
    refine ⟨{ m with
      toPressedArrays := b, npressed := st.pressed.length + 1, currentKey := keyId }, ?_, ?_⟩
    · rw [hplace]
      show (m.shiftLoop smaller.length st.pressed.length).bind _ = _
      rw [hshift]
      show (a.write smaller.length keyId keycode).bind _ = _
      rw [hwrite]
      rfl
    · have hdone := hopening.done_takeWhile _ hlt (keyId, keycode)
      have hlength : (smaller ++ st.pressed.dropWhile fun e => decide (e.1 < keyId)).length =
          st.pressed.length := congrArg List.length List.takeWhile_append_dropWhile
      rw [List.length_append] at hlength
      refine ⟨hcells.trans hdone, ?_, ?_, h.lastKeycode, h.lastRawModifiers, rfl⟩
      · show st.pressed.length + 1 = _
        rw [List.length_append, List.length_cons]
        omega
      · rw [List.length_append, List.length_cons]
        omega

theorem eraseModifier (h : m.Represents st) (rawModifiers : Nat) :
    ∃ m', m.eraseModifier rawModifiers = some m' ∧
      m'.Represents (st.eraseModifier rawModifiers) := by
  have hraw : ({ m with lastKeycode := st.lastKeycode, lastRawModifiers := rawModifiers } :
      ShortcutMemory).Represents { st with lastRawModifiers := rawModifiers } :=
    ⟨h.cells, h.npressed, h.cap, rfl, rfl, h.currentKey⟩
  unfold ShortcutMemory.eraseModifier ShortcutState.eraseModifier
  rw [h.lastRawModifiers, h.lastKeycode]
  dsimp only
  split
  next =>
    obtain ⟨m', herase, hm'⟩ := hraw.stateEraseKey st.lastKeycode
    refine ⟨m', ?_, hm'⟩
    rw [herase]
    rfl
  next => exact ⟨_, rfl, hraw⟩

/-- **The arrays are updated as the list is**, and no access is outside of them. -/
theorem updateShortcutState (h : m.Represents st) (keycode : Nat) (pressed : Bool)
    (newKey rawModifiers : Nat) :
    ∃ m', m.updateShortcutState keycode pressed newKey rawModifiers =
        some ((Swirl.updateShortcutState st keycode pressed newKey rawModifiers).1, m') ∧
      m'.Represents (Swirl.updateShortcutState st keycode pressed newKey rawModifiers).2 := by
  obtain ⟨m₁, hmodifier, h₁⟩ := h.eraseModifier rawModifiers
  unfold ShortcutMemory.updateShortcutState Swirl.updateShortcutState
  rw [hmodifier, Option.bind_eq_bind, Option.bind_some]
  dsimp only
  cases pressed with
  | true =>
      obtain ⟨m', hadd, hm'⟩ := h₁.stateAddKey keycode newKey
      refine ⟨{ m' with lastKeycode := keycode }, ?_, ?_⟩
      · rw [if_pos rfl, hadd]
        rfl
      · exact ⟨hm'.cells, hm'.npressed, hm'.cap, rfl, hm'.lastRawModifiers, hm'.currentKey⟩
  | false => exact h₁.stateEraseKey keycode

end ShortcutMemory.Represents

/-! ## What a run of calls keeps -/

/-- A call of `update_shortcut_state`. -/
structure ShortcutCall where
  keycode : Nat
  pressed : Bool
  newKey : Nat
  rawModifiers : Nat

/-- The entries a call adds, where there is room. -/
def ShortcutCall.added (c : ShortcutCall) : List (Nat × Nat) :=
  if c.pressed then [(c.newKey, c.keycode)] else []

namespace ShortcutMemory

/-- One call. -/
def call (m : ShortcutMemory) (c : ShortcutCall) : Option (Bool × ShortcutMemory) :=
  m.updateShortcutState c.keycode c.pressed c.newKey c.rawModifiers

/-- One call after the other. -/
def runCalls (m : ShortcutMemory) : List ShortcutCall → Option ShortcutMemory
  | [] => some m
  | c :: calls => (m.call c).bind fun r => r.2.runCalls calls

/-- The pressed keys, each with the keycode in its place. -/
def pairs (m : ShortcutMemory) : List (Nat × Nat) := m.cells.take m.npressed

theorem Represents.pairs_eq {m : ShortcutMemory} {st : ShortcutState} (h : m.Represents st) :
    m.pairs = st.pressed := by
  rw [pairs, h.npressed, h.cells, take_padded]

end ShortcutMemory

/-- The calls on the list. -/
def ShortcutState.call (st : ShortcutState) (c : ShortcutCall) : Bool × ShortcutState :=
  updateShortcutState st c.keycode c.pressed c.newKey c.rawModifiers

/-- The ids ascend. -/
def ShortcutState.Ascending (st : ShortcutState) : Prop :=
  (st.pressed.map Prod.fst).Pairwise (· ≤ ·)

section Steps

variable {st : ShortcutState}

theorem ShortcutState.Ascending.stateEraseKey (h : st.Ascending) (keycode : Nat) :
    (stateEraseKey st keycode).2.Ascending :=
  h.sublist ((List.filter_sublist).map Prod.fst)

/-- A key goes behind the smaller ones. -/
theorem ShortcutState.Ascending.stateAddKey (h : st.Ascending) (keycode keyId : Nat) :
    (stateAddKey st keycode keyId).Ascending := by
  unfold Swirl.stateAddKey
  split
  next => exact h
  next =>
    unfold ShortcutState.Ascending at h ⊢
    rw [List.pairwise_map] at h ⊢
    have hsplit := @List.takeWhile_append_dropWhile _ (fun e => decide (e.1 < keyId)) st.pressed
    rw [← hsplit, List.pairwise_append] at h
    obtain ⟨hfront, hback, hcross⟩ := h
    have hsmall : ∀ e ∈ st.pressed.takeWhile (fun e => decide (e.1 < keyId)), e.1 < keyId := by
      intro e he
      have hpass := List.mem_takeWhile_imp he
      exact of_decide_eq_true hpass
    -- the first id that is not smaller is a bound for those behind it
    have hlarge : ∀ e ∈ st.pressed.dropWhile (fun e => decide (e.1 < keyId)), keyId ≤ e.1 := by
      intro e he
      cases hdrop : st.pressed.dropWhile (fun e => decide (e.1 < keyId)) with
      | nil =>
          rw [hdrop] at he
          exact absurd he List.not_mem_nil
      | cons d rest =>
          have hhead := List.head?_dropWhile_not (fun e => decide (e.1 < keyId)) st.pressed
          rw [hdrop] at hhead hback he
          have hd : keyId ≤ d.1 := by simpa using hhead
          rcases List.mem_cons.1 he with rfl | he
          · exact hd
          · exact hd.trans (List.rel_of_pairwise_cons hback he)
    refine List.pairwise_append.2 ⟨hfront, List.pairwise_cons.2 ⟨hlarge, hback⟩, ?_⟩
    intro e he d hd
    rcases List.mem_cons.1 hd with rfl | hd
    · exact (hsmall e he).le
    · exact hcross e he d hd

theorem stateEraseKey_subperm (st : ShortcutState) (keycode : Nat) :
    (stateEraseKey st keycode).2.pressed.Subperm st.pressed :=
  (List.filter_sublist).subperm

theorem stateAddKey_subperm (st : ShortcutState) (keycode keyId : Nat) :
    (stateAddKey st keycode keyId).pressed.Subperm ((keyId, keycode) :: st.pressed) := by
  unfold stateAddKey
  split
  next => exact List.Subperm.cons_self
  next =>
    have hsplit := @List.takeWhile_append_dropWhile _ (fun e => decide (e.1 < keyId)) st.pressed
    refine List.Perm.subperm ?_
    dsimp only
    conv_rhs => rw [← hsplit]
    exact List.perm_middle

theorem ShortcutState.call_eq (st : ShortcutState) (c : ShortcutCall) :
    st.call c = if c.pressed then
        (false, { stateAddKey (st.eraseModifier c.rawModifiers) c.keycode c.newKey with
          lastKeycode := c.keycode })
      else stateEraseKey (st.eraseModifier c.rawModifiers) c.keycode := rfl

theorem ShortcutState.eraseModifier_sublist (st : ShortcutState) (rawModifiers : Nat) :
    (st.eraseModifier rawModifiers).pressed.Sublist st.pressed := by
  unfold ShortcutState.eraseModifier
  split
  · exact List.filter_sublist
  · exact List.Sublist.refl _

theorem ShortcutState.eraseModifier_same (st : ShortcutState) :
    st.eraseModifier st.lastRawModifiers = st := by
  unfold ShortcutState.eraseModifier
  simp

theorem ShortcutState.Ascending.call (h : st.Ascending) (c : ShortcutCall) :
    (st.call c).2.Ascending := by
  have ht : (st.eraseModifier c.rawModifiers).Ascending :=
    h.sublist ((st.eraseModifier_sublist c.rawModifiers).map Prod.fst)
  rw [st.call_eq]
  split
  · exact ht.stateAddKey c.keycode c.newKey
  · exact ht.stateEraseKey c.keycode

/-- **A call keeps entries as they are**, or adds its own. -/
theorem ShortcutState.call_subperm (st : ShortcutState) (c : ShortcutCall) :
    (st.call c).2.pressed.Subperm (c.added ++ st.pressed) := by
  have hsub := (st.eraseModifier_sublist c.rawModifiers).subperm
  rw [st.call_eq, ShortcutCall.added]
  split
  · exact (stateAddKey_subperm _ c.keycode c.newKey).trans ((List.subperm_cons _).2 hsub)
  · exact (stateEraseKey_subperm _ c.keycode).trans hsub

end Steps

/-- What the calls of a run come to: the ids in the array ascend, there are not too many, every
entry is one that a call added, with the keycode of that call, and the cells behind are zero. -/
structure WellKept (calls : List ShortcutCall) (m : ShortcutMemory) : Prop where
  ascending : (m.pressedKeys.toList.take m.npressed).Pairwise (· ≤ ·)
  bounded : m.npressed ≤ pressedKeysCap
  paired : m.pairs.Subperm (calls.flatMap ShortcutCall.added)
  clearedKeys : ∀ k ∈ m.pressedKeys.toList.drop m.npressed, k = 0
  clearedKeycodes : ∀ k ∈ m.pressedKeycodes.toList.drop m.npressed, k = 0

namespace ShortcutMemory

variable {m : ShortcutMemory} {st : ShortcutState}

theorem Represents.call (h : m.Represents st) (c : ShortcutCall) :
    ∃ m', m.call c = some ((st.call c).1, m') ∧ m'.Represents (st.call c).2 :=
  h.updateShortcutState c.keycode c.pressed c.newKey c.rawModifiers

/-- The two arrays are what their cells are. -/
theorem arrays_eq (a : PressedArrays) :
    a.pressedKeys.toList = a.cells.map Prod.fst ∧
      a.pressedKeycodes.toList = a.cells.map Prod.snd := by
  have hlen : a.pressedKeys.toList.length = a.pressedKeycodes.toList.length := by
    rw [Vector.length_toList, Vector.length_toList]
  exact ⟨(List.map_fst_zip hlen.le).symm, (List.map_snd_zip hlen.ge).symm⟩

theorem Represents.wellKept (h : m.Represents st) (hasc : st.Ascending) {calls : List ShortcutCall}
    (hsub : st.pressed.Subperm (calls.flatMap ShortcutCall.added)) : WellKept calls m := by
  obtain ⟨hkeys, hcodes⟩ := arrays_eq m.toPressedArrays
  have hbehind : m.cells.drop m.npressed =
      List.replicate (pressedKeysCap - st.pressed.length) (0, 0) := by
    rw [h.cells, h.npressed, drop_padded]
  constructor
  · rw [hkeys, ← List.map_take]
    show (m.pairs.map Prod.fst).Pairwise _
    rw [h.pairs_eq]
    exact hasc
  · rw [h.npressed]
    exact h.cap
  · rw [h.pairs_eq]
    exact hsub
  · intro k hk
    rw [hkeys, ← List.map_drop, hbehind, List.map_replicate] at hk
    exact List.eq_of_mem_replicate hk
  · intro k hk
    rw [hcodes, ← List.map_drop, hbehind, List.map_replicate] at hk
    exact List.eq_of_mem_replicate hk

/-- A run of calls from arrays that hold a state. -/
theorem Represents.runCalls (h : m.Represents st) (hasc : st.Ascending)
    {before : List ShortcutCall} (hsub : st.pressed.Subperm (before.flatMap ShortcutCall.added))
    (calls : List ShortcutCall) : ∃ m' st', m.runCalls calls = some m' ∧ m'.Represents st' ∧
      WellKept (before ++ calls) m' := by
  induction calls generalizing m st before with
  | nil =>
      rw [List.append_nil]
      exact ⟨m, st, rfl, h, h.wellKept hasc hsub⟩
  | cons c calls ih =>
      obtain ⟨m₁, hcall, h₁⟩ := h.call c
      -- what the call may add is counted with what the calls before it did
      have hsub₁ : (st.call c).2.pressed.Subperm
          ((before ++ [c]).flatMap ShortcutCall.added) := by
        rw [List.flatMap_append, List.flatMap_singleton]
        refine (st.call_subperm c).trans ?_
        exact ((List.subperm_append_left _).2 hsub).trans (List.perm_append_comm).subperm
      obtain ⟨m', st', hrun, hm', hkept⟩ := ih h₁ (hasc.call c) hsub₁
      rw [List.append_assoc] at hkept
      refine ⟨m', st', ?_, hm', hkept⟩
      rw [ShortcutMemory.runCalls, hcall]
      exact hrun

end ShortcutMemory

/-- **The state of the shortcuts is well kept by every run of calls.** Every call keeps each id
with its keycode, and a release with the modifiers unchanged removes exactly the entries of its
keycode, and returns whether there were any. -/
theorem updateShortcutState_wellKept (calls : List ShortcutCall) :
    ∃ m, ShortcutMemory.empty.runCalls calls = some m ∧ WellKept calls m ∧
      (∀ c : ShortcutCall, ∃ found m', m.call c = some (found, m') ∧
        m'.pairs.Subperm (c.added ++ m.pairs)) ∧
      ∀ keycode newKey : Nat, ∃ m',
        m.updateShortcutState keycode false newKey m.lastRawModifiers =
          some (decide (∃ e ∈ m.pairs, e.2 = keycode), m') ∧
        m'.pairs = m.pairs.filter fun e => decide (e.2 ≠ keycode) := by
  obtain ⟨m, st, hrun, hm, hkept⟩ := @ShortcutMemory.Represents.runCalls _ _
    ShortcutMemory.Represents.empty List.Pairwise.nil [] (List.Subperm.refl []) calls
  refine ⟨m, hrun, hkept, fun c => ?_, fun keycode newKey => ?_⟩
  · obtain ⟨m', hcall, hm'⟩ := hm.call c
    refine ⟨_, m', hcall, ?_⟩
    rw [hm'.pairs_eq, hm.pairs_eq]
    exact st.call_subperm c
  · let c : ShortcutCall := ⟨keycode, false, newKey, m.lastRawModifiers⟩
    obtain ⟨m', hcall, hm'⟩ := hm.call c
    -- nothing is erased for a modifier
    have herase : st.call c = stateEraseKey st keycode := by
      rw [st.call_eq]
      show stateEraseKey (st.eraseModifier m.lastRawModifiers) keycode = _
      rw [hm.lastRawModifiers, st.eraseModifier_same]
    rw [herase] at hcall hm'
    refine ⟨m', hcall.trans ?_, ?_⟩
    · rw [hm.pairs_eq, stateEraseKey]
      congr 2
      rw [Bool.eq_iff_iff, List.any_eq_true, decide_eq_true_iff]
      simp only [decide_eq_true_iff]
    · rw [hm'.pairs_eq, hm.pairs_eq, stateEraseKey]

end Swirl
