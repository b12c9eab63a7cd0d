import Swirl.Swaybar.StatusLine

set_option autoImplicit false

/-! # However the stream is cut

What the status line has come to is a function of the bytes it has read, `settle`, and not of how
they came: what some bytes come to, and then more, is what all of them come to (`settle_append`).
The calls of `i3bar_handle_readable` compute it as long as they stop at a place they come back to,
and meet no error behind an array they have not shown.
-/

namespace Swirl.Swaybar

/-! ## What some bytes come to -/

/-- What comes next in the stream. -/
inductive Mode where
  | start
  | comma
  | value
  deriving DecidableEq, Repr

/-- The character that must come. -/
def Mode.awaits : Mode → Option Char
  | .start => some '['
  | .comma => some ','
  | .value => none

/-- What some bytes come to: what comes next, the bytes of the object that is not complete, the
last array, and the text of an error. -/
structure Outcome (J : Type) where
  mode : Mode
  rest : List Char
  last : Option J
  error : Option String

variable {J B : Type} {t : Tokener J}

/-- What came after an array. -/
def Outcome.after (r : Outcome J) (last : Option J) : Outcome J :=
  { r with last := r.last.or last }

/-- The array a value is. -/
def Tokener.array (t : Tokener J) (v : J) : Option J := if t.isArray v then some v else none

/-- What some bytes come to. -/
def settle (t : Tokener J) (m : Mode) (x : List Char) : Outcome J :=
  match m.awaits with
  | some c =>
      match _h : scanFor c x with
      | .found rest => settle t .value rest
      | .blank => { mode := m, rest := [], last := none, error := none }
      | .invalid => { mode := m, rest := [], last := none, error := some invalidText }
  | none =>
      match _h : t.parse x with
      | .success v n => (settle t .comma (x.drop n)).after (t.array v)
      | .more => { mode := m, rest := x, last := none, error := none }
      | .error => { mode := m, rest := [], last := none, error := some failedText }
termination_by x.length
decreasing_by
  · exact scanFor_length _h
  · have hpos := t.offset_pos _h
    have hle := t.offset_le _h
    rw [List.length_drop]
    omega

/-- More bytes after those that came to something. -/
def Outcome.resume (t : Tokener J) (r : Outcome J) (y : List Char) : Outcome J :=
  if r.error.isSome then r else (settle t r.mode (r.rest ++ y)).after r.last

section Settle

variable {m : Mode} {c : Char} {x y rest : List Char} {v : J} {n : Nat}

@[simp] theorem Outcome.after_none (r : Outcome J) : r.after none = r := by
  unfold Outcome.after
  rw [Option.or_none]

theorem Outcome.after_after (r : Outcome J) (a b : Option J) :
    (r.after a).after b = r.after (a.or b) := by
  unfold Outcome.after
  rw [Option.or_assoc]

theorem Outcome.resume_after (r : Outcome J) (a : Option J) (y : List Char) :
    (r.after a).resume t y = (r.resume t y).after a := by
  unfold Outcome.resume
  show (if r.error.isSome then r.after a else _) = _
  split
  · rfl
  · exact (Outcome.after_after _ _ _).symm

theorem settle_found (hm : m.awaits = some c) (h : scanFor c x = .found rest) :
    settle t m x = settle t .value rest := by
  rw [settle, hm]
  dsimp only
  split
  next h' =>
    rw [h] at h'
    obtain rfl := Scan.found.inj h'
    rfl
  next h' => rw [h] at h'; cases h'
  next h' => rw [h] at h'; cases h'

theorem settle_blank (hm : m.awaits = some c) (h : scanFor c x = .blank) :
    settle t m x = { mode := m, rest := [], last := none, error := none } := by
  rw [settle, hm]
  dsimp only
  split
  next h' => rw [h] at h'; cases h'
  next h' => rfl
  next h' => rw [h] at h'; cases h'

theorem settle_invalid (hm : m.awaits = some c) (h : scanFor c x = .invalid) :
    settle t m x = { mode := m, rest := [], last := none, error := some invalidText } := by
  rw [settle, hm]
  dsimp only
  split
  next h' => rw [h] at h'; cases h'
  next h' => rw [h] at h'; cases h'
  next h' => rfl

theorem settle_success (h : t.parse x = .success v n) :
    settle t .value x = (settle t .comma (x.drop n)).after (t.array v) := by
  rw [settle]
  dsimp only [Mode.awaits]
  split
  next h' =>
    rw [h] at h'
    obtain ⟨rfl, rfl⟩ := Parsed.success.inj h'
    rfl
  next h' => rw [h] at h'; cases h'
  next h' => rw [h] at h'; cases h'

theorem settle_more (h : t.parse x = .more) :
    settle t .value x = { mode := .value, rest := x, last := none, error := none } := by
  rw [settle]
  dsimp only [Mode.awaits]
  split
  next h' => rw [h] at h'; cases h'
  next h' => rfl
  next h' => rw [h] at h'; cases h'

theorem settle_error (h : t.parse x = .error) :
    settle t .value x = { mode := .value, rest := [], last := none, error := some failedText } := by
  rw [settle]
  dsimp only [Mode.awaits]
  split
  next h' => rw [h] at h'; cases h'
  next h' => rw [h] at h'; cases h'
  next h' => rfl

/-! ## Looking for a character, in more bytes -/

theorem scanFor_append (c : Char) (x y : List Char) : scanFor c (x ++ y) =
    match scanFor c x with
    | .found rest => .found (rest ++ y)
    | .blank => scanFor c y
    | .invalid => .invalid := by
  induction x with
  | nil => rfl
  | cons a x ih =>
      rw [List.cons_append, scanFor, scanFor, ih]
      split
      · rfl
      · split <;> rfl

theorem scanFor_suffix (h : scanFor c x = .found rest) : rest <:+ x := by
  induction x with
  | nil => cases h
  | cons a x ih =>
      rw [scanFor] at h
      split at h
      · obtain rfl := Scan.found.inj h
        exact List.suffix_cons a _
      · split at h
        · exact (ih h).trans (List.suffix_cons a x)
        · cases h

/-- Blanks before the character do not matter. -/
theorem scanFor_drop (hc : isSpace c = false) (hn : n ≤ (x.takeWhile isSpace).length) :
    scanFor c (x.drop n) = scanFor c x := by
  induction n generalizing x with
  | zero => rw [List.drop_zero]
  | succ n ih =>
      cases x with
      | nil => rfl
      | cons a x =>
          rw [List.takeWhile_cons] at hn
          split at hn
          next ha =>
            have hac : a ≠ c := by
              rintro rfl
              rw [hc] at ha
              cases ha
            rw [List.drop_succ_cons, ih (Nat.le_of_succ_le_succ hn), scanFor, if_neg hac, if_pos ha]
          next => exact absurd hn (Nat.not_succ_le_zero n)

theorem settle_congr (hm : m.awaits = some c) (h : scanFor c x = scanFor c y) :
    settle t m x = settle t m y := by
  cases hy : scanFor c y with
  | found rest => rw [settle_found hm hy, settle_found hm (h.trans hy)]
  | blank => rw [settle_blank hm hy, settle_blank hm (h.trans hy)]
  | invalid => rw [settle_invalid hm hy, settle_invalid hm (h.trans hy)]

/-! ## More bytes -/

/-- **What some bytes come to, and then more, is what all of them come to.** -/
theorem settle_append (t : Tokener J) (m : Mode) (x y : List Char) :
    settle t m (x ++ y) = (settle t m x).resume t y := by
  induction hlen : x.length using Nat.strong_induction_on generalizing m x with
  | _ k ih =>
      subst hlen
      cases hm : m.awaits with
      | some c =>
          have happend := scanFor_append c x y
          cases hscan : scanFor c x with
          | found rest =>
              rw [hscan] at happend
              rw [settle_found hm happend, settle_found hm hscan]
              exact ih _ (scanFor_length hscan) .value rest rfl
          | blank =>
              rw [hscan] at happend
              rw [settle_congr hm happend, settle_blank hm hscan]
              exact (Outcome.after_none _).symm
          | invalid =>
              rw [hscan] at happend
              rw [settle_invalid hm happend, settle_invalid hm hscan]
              rfl
      | none =>
          obtain rfl : m = .value := by
            cases m with
            | start => cases hm
            | comma => cases hm
            | value => rfl
          cases hparse : t.parse x with
          | success v n =>
              obtain ⟨k, hmore, hk, hzero⟩ := t.success_append hparse y
              have hpos := t.offset_pos hparse
              have hle := t.offset_le hparse
              rw [settle_success hmore, settle_success hparse, Outcome.resume_after,
                ← ih _ (by rw [List.length_drop]; omega) .comma (x.drop n) rfl]
              congr 1
              rcases hle.lt_or_eq with hlt | heq
              · -- the value ended before the cut
                rw [hzero hlt, Nat.add_zero, List.drop_append_of_le_length hle]
              · -- the value ended at the cut: blanks may go with it
                have hdrop : (x ++ y).drop (n + k) = y.drop k := by
                  rw [heq, List.drop_append]
                  simp
                have hnone : x.drop n = [] := by
                  rw [heq, List.drop_length]
                rw [hdrop, hnone, List.nil_append]
                exact settle_congr rfl (scanFor_drop (by decide) hk)
          | more =>
              rw [settle_more hparse]
              exact (Outcome.after_none _).symm
          | error =>
              rw [settle_error hparse, settle_error (t.error_append hparse y)]
              rfl

/-- Where the bytes come to an end, they come to the same again. -/
theorem settle_rest (t : Tokener J) (m : Mode) (x : List Char) (h : (settle t m x).error = none) :
    settle t (settle t m x).mode (settle t m x).rest =
      { mode := (settle t m x).mode, rest := (settle t m x).rest, last := none, error := none } := by
  induction hlen : x.length using Nat.strong_induction_on generalizing m x with
  | _ k ih =>
      subst hlen
      cases hm : m.awaits with
      | some c =>
          cases hscan : scanFor c x with
          | found rest =>
              rw [settle_found hm hscan] at h ⊢
              exact ih _ (scanFor_length hscan) .value rest h rfl
          | blank =>
              rw [settle_blank hm hscan]
              exact settle_blank hm rfl
          | invalid =>
              rw [settle_invalid hm hscan] at h
              cases h
      | none =>
          obtain rfl : m = .value := by
            cases m with
            | start => cases hm
            | comma => cases hm
            | value => rfl
          cases hparse : t.parse x with
          | success v n =>
              have hpos := t.offset_pos hparse
              have hle := t.offset_le hparse
              rw [settle_success hparse] at h ⊢
              exact ih _ (by rw [List.length_drop]; omega) .comma (x.drop n) h rfl
          | more =>
              rw [settle_more hparse]
              exact settle_more hparse
          | error =>
              rw [settle_error hparse] at h
              cases h

end Settle

/-! ## One turn -/

/-- What comes next for the loop. -/
def Reader.mode (l : Reader J) : Mode := if l.expectingComma then .comma else .value

/-- The bytes that are not consumed. -/
def Reader.ahead (l : Reader J) : List Char := l.buffer.drop l.pos

section Turn

variable {l l' : Reader J} {text : String} {y r : List Char} {reads : List (List Char)}

/-- **A turn without a read** consumes what the bytes ahead begin with. -/
theorem turn_again (hturn : turn t l = .again l') :
    l'.buffer = l.buffer ∧ l'.pos ≤ l'.buffer.length ∧ ∃ v : Option J,
      l'.lastObject = v.or l.lastObject ∧ ∀ y,
        settle t l.mode (l.ahead ++ y) = (settle t l'.mode (l'.ahead ++ y)).after v := by
  unfold turn at hturn
  split at hturn
  next hcomma =>
    have hmode : l.mode = .comma := by
      unfold Reader.mode
      rw [hcomma]
      rfl
    split at hturn
    next rest hscan =>
      dsimp only at hturn
      split at hturn
      · obtain rfl := Turn.again.inj hturn
        have hsuffix : rest <:+ l.buffer := (scanFor_suffix hscan).trans (List.drop_suffix _ _)
        have hahead : l.buffer.drop (l.buffer.length - rest.length) = rest :=
          (List.suffix_iff_eq_drop.mp hsuffix).symm
        refine ⟨rfl, Nat.sub_le _ _, none, rfl, fun y => ?_⟩
        have hmore := scanFor_append ',' (l.buffer.drop l.pos) y
        rw [hscan] at hmore
        rw [hmode, Outcome.after_none, Reader.ahead, settle_found rfl hmore]
        show _ = settle t .value (l.buffer.drop (l.buffer.length - rest.length) ++ y)
        rw [hahead]
      · cases hturn
    · cases hturn
    · cases hturn
  next hcomma =>
    have hmode : l.mode = .value := by
      unfold Reader.mode
      rw [if_neg hcomma]
    split at hturn
    next v n hparse =>
      dsimp only at hturn
      split at hturn
      next hlt =>
        obtain rfl := Turn.again.inj hturn
        refine ⟨rfl, hlt.le, t.array v, ?_, fun y => ?_⟩
        · unfold Tokener.array
          split <;> rfl
        · -- something follows the value already, so more bytes do not change its end
          obtain ⟨k, hmore, -, hzero⟩ := t.success_append hparse y
          have hle := t.offset_le hparse
          have hinner : n < (l.buffer.drop l.pos).length := by
            rw [List.length_drop]
            omega
          rw [hzero hinner, Nat.add_zero] at hmore
          rw [hmode, Reader.ahead, settle_success hmore, List.drop_append_of_le_length hle,
            List.drop_drop]
          rfl
      next => cases hturn
    · split at hturn <;> cases hturn
    · cases hturn

/-- **A turn that ends in a read** has come to the end of the bytes; it loses its place only when
the buffer was full. -/
theorem turn_read (hturn : turn t l = .read l') (hpos : l.pos ≤ l.buffer.length) :
    l'.pos ≤ l'.buffer.length ∧
      (l'.pos = 0 ∨ (l'.buffer = l.buffer ∧ l'.pos = l.pos ∧ l'.mode = .value ∧ l.mode = .value ∧
        l'.lastObject = l.lastObject)) ∧
      ∃ v : Option J, l'.lastObject = v.or l.lastObject ∧
        settle t l.mode l.ahead = { mode := l'.mode, rest := l'.ahead, last := v, error := none } := by
  unfold turn at hturn
  split at hturn
  next hcomma =>
    have hmode : l.mode = .comma := by
      unfold Reader.mode
      rw [hcomma]
      rfl
    split at hturn
    next rest hscan =>
      dsimp only at hturn
      split at hturn
      · cases hturn
      next hend =>
        obtain rfl := Turn.read.inj hturn
        have hlen : rest.length ≤ l.buffer.length :=
          ((scanFor_suffix hscan).trans (List.drop_suffix _ _)).length_le
        have hrest : rest = [] := by
          rw [← List.length_eq_zero_iff]
          omega
        refine ⟨Nat.zero_le _, Or.inl rfl, none, rfl, ?_⟩
        rw [hmode, Reader.ahead, settle_found rfl hscan, hrest, settle_more t.parse_nil]
        rfl
    next hscan =>
      obtain rfl := Turn.read.inj hturn
      refine ⟨Nat.zero_le _, Or.inl rfl, none, rfl, ?_⟩
      rw [hmode, Reader.ahead, settle_blank rfl hscan]
      show _ = Outcome.mk (Reader.mode l) [] none none
      rw [hmode]
    · cases hturn
  next hcomma =>
    have hmode : l.mode = .value := by
      unfold Reader.mode
      rw [if_neg hcomma]
    split at hturn
    next v n hparse =>
      dsimp only at hturn
      split at hturn
      · cases hturn
      next hend =>
        obtain rfl := Turn.read.inj hturn
        have hnone : (l.buffer.drop l.pos).drop n = [] := by
          rw [List.drop_drop, List.drop_eq_nil_iff]
          omega
        refine ⟨Nat.zero_le _, Or.inl rfl, t.array v, ?_, ?_⟩
        · unfold Tokener.array Reader.clear
          split <;> rfl
        · rw [hmode, Reader.ahead, settle_success hparse, hnone, settle_blank rfl rfl]
          rfl
    next hparse =>
      have hsame : settle t l.mode l.ahead =
          { mode := .value, rest := l.ahead, last := none, error := none } := by
        rw [hmode]
        exact settle_more hparse
      split at hturn
      · obtain rfl := Turn.read.inj hturn
        refine ⟨Nat.zero_le _, Or.inl rfl, none, rfl, ?_⟩
        rw [hsame, ← hmode]
        rfl
      · obtain rfl := Turn.read.inj hturn
        refine ⟨hpos, Or.inr ⟨rfl, rfl, hmode, hmode, rfl⟩, none, rfl, ?_⟩
        rw [hsame, ← hmode]
        rfl
    · cases hturn

/-- **A turn that ends in an error** has met it in the bytes ahead. -/
theorem turn_fail (hturn : turn t l = .fail l' text) : l' = l ∧
    settle t l.mode l.ahead = { mode := l.mode, rest := [], last := none, error := some text } := by
  unfold turn at hturn
  split at hturn
  next hcomma =>
    have hmode : l.mode = .comma := by
      unfold Reader.mode
      rw [hcomma]
      rfl
    split at hturn
    · dsimp only at hturn
      split at hturn <;> cases hturn
    · cases hturn
    next hscan =>
      obtain ⟨rfl, rfl⟩ := Turn.fail.inj hturn
      refine ⟨rfl, ?_⟩
      rw [hmode]
      exact settle_invalid rfl hscan
  next hcomma =>
    have hmode : l.mode = .value := by
      unfold Reader.mode
      rw [if_neg hcomma]
    split at hturn
    · dsimp only at hturn
      split at hturn <;> cases hturn
    · split at hturn <;> cases hturn
    next hparse =>
      obtain ⟨rfl, rfl⟩ := Turn.fail.inj hturn
      refine ⟨rfl, ?_⟩
      rw [hmode]
      exact settle_error hparse

/-! ## The loop -/

/-- From its front, the buffer comes to the place of the loop. -/
def Reader.Front (t : Tokener J) (l : Reader J) : Prop :=
  ∃ (m : Mode) (v : Option J), m ≠ .start ∧ (v = none ∨ v = l.lastObject) ∧
    ∀ y, settle t m (l.buffer ++ y) = (settle t l.mode (l.ahead ++ y)).after v

theorem mode_ne_start (l : Reader J) : l.mode ≠ .start := by
  unfold Reader.mode
  split <;> exact fun h => by cases h

theorem front_of_zero (h : l.pos = 0) : l.Front t := by
  refine ⟨l.mode, none, mode_ne_start l, Or.inl rfl, fun y => ?_⟩
  rw [Outcome.after_none, Reader.ahead, h, List.drop_zero]

theorem Reader.Front.again (h : l.Front t) (hturn : turn t l = .again l') : l'.Front t := by
  obtain ⟨m, v, hm, hv, hfront⟩ := h
  obtain ⟨hbuffer, -, u, hu, hstep⟩ := turn_again hturn
  refine ⟨m, u.or v, hm, ?_, fun y => ?_⟩
  · rw [hu]
    cases u with
    | none => exact hv
    | some j => exact Or.inr rfl
  · rw [hbuffer, hfront y, hstep y, Outcome.after_after]

theorem Reader.Front.read (h : l.Front t) (hturn : turn t l = .read l')
    (hpos : l.pos ≤ l.buffer.length) : l'.Front t := by
  obtain ⟨-, hplace, -⟩ := turn_read hturn hpos
  rcases hplace with hzero | ⟨hbuffer, hsame, hmode', hmode, hlast⟩
  · exact front_of_zero hzero
  · obtain ⟨m, v, hm, hv, hfront⟩ := h
    refine ⟨m, v, hm, hlast ▸ hv, fun y => ?_⟩
    have hahead : l'.ahead = l.ahead := by
      unfold Reader.ahead
      rw [hbuffer, hsame]
    rw [hbuffer, hfront y, hmode', hmode, hahead]

/-- The buffer after a read. -/
theorem ahead_append (hpos : l.pos ≤ l.buffer.length) (r : List Char) :
    ({ l with buffer := l.buffer ++ r } : Reader J).ahead = l.ahead ++ r :=
  List.drop_append_of_le_length hpos

theorem Reader.Front.append (h : l.Front t) (hpos : l.pos ≤ l.buffer.length) (r : List Char) :
    ({ l with buffer := l.buffer ++ r } : Reader J).Front t := by
  obtain ⟨m, v, hm, hv, hfront⟩ := h
  refine ⟨m, v, hm, hv, fun y => ?_⟩
  rw [ahead_append hpos, List.append_assoc, List.append_assoc]
  exact hfront (r ++ y)

/-- What a loop that ended has come to. -/
def Reader.done (l : Reader J) (error : Option String) : Outcome J :=
  { mode := l.mode, rest := if error.isSome then [] else l.ahead, last := l.lastObject, error }

/-- **The loop comes to what its bytes come to**, and when it stops for more bytes it is still at
the place that the front of its buffer leads to. -/
theorem loop_spec (t : Tokener J) (reads : List (List Char)) (l : Reader J)
    (hpos : l.pos ≤ l.buffer.length) (hfront : l.Front t) :
    (settle t l.mode (l.ahead ++ reads.flatten)).after l.lastObject =
        (loop t reads l).1.done (loop t reads l).2 ∧
      ((loop t reads l).2 = none → (loop t reads l).1.Front t ∧
        ((loop t reads l).1.pos = 0 ∨ (loop t reads l).1.mode = .value)) := by
  induction reads, l using loop.induct t with
  | case1 reads l l' hturn ih =>
      obtain ⟨-, hpos', v, hv, hstep⟩ := turn_again hturn
      rw [loop_again hturn, hstep, Outcome.after_after, ← hv]
      exact ih hpos' (hfront.again hturn)
  | case2 l l' hturn =>
      obtain ⟨-, hplace, v, hv, hsettle⟩ := turn_read hturn hpos
      rw [loop_nil hturn, List.flatten_nil, List.append_nil, hsettle]
      refine ⟨?_, fun _ => ⟨hfront.read hturn hpos, hplace.imp_right fun h => h.2.2.1⟩⟩
      unfold Outcome.after Reader.done
      rw [hv]
      rfl
  | case3 l l' hturn r reads ih =>
      obtain ⟨hpos', -, v, hv, hsettle⟩ := turn_read hturn hpos
      have hlen : l'.pos ≤ (l'.buffer ++ r).length :=
        hpos'.trans (by rw [List.length_append]; exact Nat.le_add_right _ _)
      have hnext := ih hlen ((hfront.read hturn hpos).append hpos' r)
      rw [ahead_append hpos', List.append_assoc] at hnext
      rw [loop_cons hturn, List.flatten_cons, settle_append, hsettle]
      have hresume : (Outcome.mk l'.mode l'.ahead v none).resume t (r ++ reads.flatten) =
          (settle t l'.mode (l'.ahead ++ (r ++ reads.flatten))).after v := rfl
      rw [hresume, Outcome.after_after, ← hv]
      exact hnext
  | case4 reads l l' text hturn =>
      obtain ⟨rfl, hsettle⟩ := turn_fail hturn
      rw [loop_fail hturn, settle_append, hsettle]
      exact ⟨rfl, fun h => by cases h⟩

/-- The place is kept: either the buffer begins with the bytes ahead, or what was consumed at its
front did not begin with a comma. -/
def Reader.KeepsPlace (l : Reader J) : Prop :=
  l.pos = 0 ∨ ∀ rest, scanFor ',' l.buffer ≠ .found rest

/-- **The next call comes back to a place that is kept.** -/
theorem Reader.Front.settle_buffer (h : l.Front t) (hkeeps : l.KeepsPlace)
    (hvalue : l.pos = 0 ∨ l.mode = .value)
    (hwait : settle t l.mode l.ahead =
      { mode := l.mode, rest := l.ahead, last := none, error := none }) :
    ∃ v : Option J, (v = none ∨ v = l.lastObject) ∧ settle t l.mode l.buffer =
      { mode := l.mode, rest := l.ahead, last := v, error := none } := by
  by_cases hpos : l.pos = 0
  · have hahead : l.ahead = l.buffer := by
      unfold Reader.ahead
      rw [hpos, List.drop_zero]
    rw [hahead] at hwait ⊢
    exact ⟨none, Or.inl rfl, hwait⟩
  · obtain ⟨m, v, hm, hv, hfront⟩ := h
    have hmode := hvalue.resolve_left hpos
    have hcomes := hfront []
    rw [List.append_nil, List.append_nil, hwait] at hcomes
    refine ⟨v, hv, ?_⟩
    cases m with
    | start => exact absurd rfl hm
    | value =>
        rw [hmode] at hcomes ⊢
        exact hcomes
    | comma =>
        -- the front was a comma, or the loop would not be where it is
        cases hscan : scanFor ',' l.buffer with
        | found rest => exact absurd hscan (hkeeps.resolve_left hpos rest)
        | blank =>
            rw [settle_blank rfl hscan, hmode] at hcomes
            cases congrArg Outcome.mode hcomes
        | invalid =>
            rw [settle_invalid rfl hscan] at hcomes
            cases congrArg Outcome.error hcomes

end Turn

end Swirl.Swaybar
