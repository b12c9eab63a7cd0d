import Swirl.Swaybar.StatusReader

set_option autoImplicit false

/-! # When the status line returns

A call of `status_handle_readable` returns when what it reads comes to an end with `EAGAIN` or an
error, or to something that is no i3bar text, and not with the end of the file, which the loops do
not notice. In the text protocol the end of the file makes it look in front of the buffer, and so
does a first call without any bytes.
-/

namespace Swirl.Swaybar

open Lib

variable {J B : Type}

/-! ## What is claimed, and when it holds -/

/-- A value that is parsed does not consist of blanks. -/
def Tokener.Visible (t : Tokener J) : Prop :=
  ∀ x v n, t.parse x = .success v n → ∃ a ∈ x.take n, isSpace a = false

/-- The bytes of the first reads. -/
def bytesOf (reads : ℕ → ReadResult) : ℕ → List Char
  | 0 => []
  | k + 1 => bytesOf reads k ++ (match reads k with | .bytes d => d | _ => [])

/-- Up to the `k`-th, every read has some bytes. -/
def DataBefore (reads : ℕ → ReadResult) (k : ℕ) : Prop := ∀ j < k, ∃ d ≠ [], reads j = .bytes d

/-- What `read` returns comes to `EAGAIN`, to an error, or to bytes that are no i3bar text, before
it comes to the end of the file. -/
def ReadsEnd (t : Tokener J) (m : Mode) (x : List Char) (reads : ℕ → ReadResult) : Prop :=
  ∃ k, DataBefore reads k ∧ ((∀ d, reads k ≠ .bytes d) ∨
    (settle t m (x ++ bytesOf reads k)).error ≠ none)

/-- What `getline` returns comes to `EAGAIN` or to an error before it comes to the end of the
file. -/
def LinesEnd (lines : ℕ → LineResult) : Prop :=
  ∃ k, (∀ j < k, (lines j).errno = .none ∧ (lines j).ret ≠ none) ∧ (lines k).errno ≠ .none

/-- What `ioctl` and the first `read` agree on. -/
def StatusInput.greeting (inp : StatusInput) : Option (List Char) :=
  match inp.available, inp.first with
  | some n, .bytes d => if d.length = n then some d else none
  | _, _ => none

/-- What the first call is given comes to an end: with a header as that of i3bar, and without one as
that of the text protocol, where there must be some bytes. -/
def GreetingEnds (t : Tokener J) (header : List Char → Option Bool) (inp : StatusInput) : Prop :=
  ∀ d, inp.greeting = some d →
    match i3barHeader header d with
    | some (clicks, rest) => (clicks && !inp.written) = true ∨ ReadsEnd t .start rest inp.reads
    | none => d ≠ [] ∧ LinesEnd inp.lines

/-- What a call is given comes to an end before the end of the file. -/
def InputEnds (t : Tokener J) (header : List Char → Option Bool) (inp : StatusInput) :
    Status B → Prop
  | .undef _ => GreetingEnds t header inp
  | .error _ => True
  | .text _ _ => LinesEnd inp.lines
  | .i3bar s => ReadsEnd t s.mode s.buffer inp.reads

/-! ## The buffer -/

/-- Some bytes lie in a buffer, which has some size. -/
def Fits (buffer : List Char) (size : ℕ) : Prop := buffer.length ≤ size ∧ 0 < size

/-- The buffer of a status line is as large as its size says. -/
def Status.Ok : Status B → Prop
  | .undef size => 0 < size
  | .error _ => True
  | .text _ size => 0 < size
  | .i3bar s => Fits s.buffer s.bufferSize ∧ (s.started = false → s.expectingComma = false)

/-- The same in the loops of `i3bar_handle_readable`. -/
def I3barState.Ok : I3barState J B → Prop
  | .bracket s => Fits s.buffer s.bufferSize ∧ (s.started = false → s.expectingComma = false)
  | .objects s l => Fits l.buffer l.bufferSize ∧ l.pos ≤ l.buffer.length ∧ s.started = true

section Buffer

variable {t : Tokener J} {l l' : Reader J} {σ ι : Type}

theorem fits_iff {a : Span} {size : ℕ} :
    a.fits size = true ↔ a.stop ≤ a.start ∨ 0 ≤ a.start ∧ a.stop ≤ size := by
  rw [Span.fits, Bool.or_eq_true, Bool.and_eq_true, decide_eq_true_iff, decide_eq_true_iff,
    decide_eq_true_iff]

theorem trailingBlanks_lt {x : List Char} (h : ∃ a ∈ x, isSpace a = false) :
    trailingBlanks x < x.length := by
  obtain ⟨a, ha, hspace⟩ := h
  have hreverse : x.reverse.length = x.length := List.length_reverse
  rw [trailingBlanks, ← hreverse]
  refine lt_of_le_of_ne (List.takeWhile_prefix _).length_le fun hlen => ?_
  -- otherwise all of it were blanks
  have hall : x.reverse.takeWhile isSpace = x.reverse :=
    (List.takeWhile_prefix _).eq_of_length hlen
  have hblank := List.mem_takeWhile_imp (hall.symm ▸ List.mem_reverse.2 ha)
  rw [hspace] at hblank
  cases hblank

/-- **No turn accesses anything outside of the buffer.** -/
theorem turnSpans_fit (hvis : t.Visible) (hpos : l.pos ≤ l.buffer.length)
    (hfits : Fits l.buffer l.bufferSize) :
    ((turnSpans t l).all fun a => a.fits l.bufferSize) = true := by
  obtain ⟨hlen, -⟩ := hfits
  unfold turnSpans
  dsimp only
  split
  · simp only [List.all_cons, List.all_nil, Bool.and_true, fits_iff]
    omega
  · split
    next v n hparse =>
      have hle := t.offset_le hparse
      rw [List.length_drop] at hle
      obtain ⟨a, ha, hspace⟩ := hvis _ v n hparse
      have hmem : a ∈ l.buffer.take (l.pos + n) := by
        rw [List.take_add]
        exact List.mem_append_right _ ha
      have hblanks := trailingBlanks_lt ⟨a, hmem, hspace⟩
      rw [List.length_take] at hblanks
      simp only [List.all_cons, List.all_nil, Bool.and_true, Bool.and_eq_true, fits_iff]
      omega
    next hparse =>
      split
      · simp only [List.all_cons, List.all_nil, Span.fits]
        simp
        omega
      · simp only [List.all_cons, List.all_nil, Span.fits]
        simp
        omega
    next hparse =>
      have hne : l.buffer.drop l.pos ≠ [] := by
        intro hnil
        rw [hnil, t.parse_nil] at hparse
        cases hparse
      have hlt : 0 < (l.buffer.drop l.pos).length := List.length_pos_iff.2 hne
      rw [List.length_drop] at hlt
      simp only [List.all_cons, List.all_nil, Bool.and_true, Bool.and_eq_true, fits_iff]
      omega

theorem turn_again_size (hturn : turn t l = .again l') : l'.bufferSize = l.bufferSize := by
  unfold turn at hturn
  split at hturn
  · split at hturn
    · dsimp only at hturn
      split at hturn
      · obtain rfl := Turn.again.inj hturn
        rfl
      · cases hturn
    · cases hturn
    · cases hturn
  · split at hturn
    · dsimp only at hturn
      split at hturn
      · obtain rfl := Turn.again.inj hturn
        rfl
      · cases hturn
    · split at hturn <;> cases hturn
    · cases hturn

/-- Before a read the buffer still holds its bytes; it is doubled when it is full. -/
theorem turn_read_fits (hturn : turn t l = .read l') (h : Fits l.buffer l.bufferSize) :
    Fits l'.buffer l'.bufferSize := by
  obtain ⟨hlen, hpos⟩ := h
  have hclear : Fits ([] : List Char) l.bufferSize := ⟨Nat.zero_le _, hpos⟩
  unfold turn at hturn
  split at hturn
  · split at hturn
    · dsimp only at hturn
      split at hturn
      · cases hturn
      · obtain rfl := Turn.read.inj hturn
        exact hclear
    · obtain rfl := Turn.read.inj hturn
      exact hclear
    · cases hturn
  · split at hturn
    · dsimp only at hturn
      split at hturn
      · cases hturn
      · obtain rfl := Turn.read.inj hturn
        exact hclear
    · split at hturn
      · obtain rfl := Turn.read.inj hturn
        refine ⟨?_, hpos⟩
        show (l.buffer.drop l.pos).length ≤ l.bufferSize
        rw [List.length_drop]
        omega
      · obtain rfl := Turn.read.inj hturn
        exact ⟨by show l.buffer.length ≤ l.bufferSize * 2; omega, by show 0 < l.bufferSize * 2; omega⟩
    · cases hturn

end Buffer

/-! ## One turn of `i3bar_handle_readable` -/

/-- What comes next. -/
def I3barState.mode : I3barState J B → Mode
  | .bracket s => s.mode
  | .objects _ l => l.mode

/-- The bytes that are not consumed. -/
def I3barState.ahead : I3barState J B → List Char
  | .bracket s => s.buffer
  | .objects _ l => l.ahead

/-- A measure that turns without a read make smaller. -/
def I3barState.rank : I3barState J B → ℕ
  | .bracket s => s.buffer.length + 1
  | .objects _ l => l.buffer.length - l.pos

/-- Bytes that have led to a state, with whatever follows them, come to what follows comes to
there. -/
def Follows (t : Tokener J) (m : Mode) (x : List Char) (st : I3barState J B) : Prop :=
  ∃ v : Option J, ∀ y, settle t m (x ++ y) = (settle t st.mode (st.ahead ++ y)).after v

namespace Follows

variable {t : Tokener J} {m : Mode} {x d : List Char} {st st' : I3barState J B}

theorem refl (st : I3barState J B) : Follows t st.mode st.ahead st :=
  ⟨none, fun _ => (Outcome.after_none _).symm⟩

theorem trans (h : Follows t m x st) (h' : Follows t st.mode (st.ahead ++ d) st') :
    Follows t m (x ++ d) st' := by
  obtain ⟨v, h⟩ := h
  obtain ⟨v', h'⟩ := h'
  refine ⟨v'.or v, fun y => ?_⟩
  calc settle t m (x ++ d ++ y) = settle t m (x ++ (d ++ y)) := by rw [List.append_assoc]
    _ = (settle t st.mode (st.ahead ++ d ++ y)).after v := by rw [h, List.append_assoc]
    _ = (settle t st'.mode (st'.ahead ++ y)).after (v'.or v) := by rw [h', Outcome.after_after]

/-- A turn without a read. -/
theorem again (h : Follows t m x st) (h' : Follows t st.mode st.ahead st') :
    Follows t m x st' := by
  have hnil : Follows t st.mode (st.ahead ++ []) st' := by
    rw [List.append_nil]
    exact h'
  have hboth := h.trans hnil
  rw [List.append_nil] at hboth
  exact hboth

theorem error_eq (h : Follows t m x st) :
    (settle t m x).error = (settle t st.mode st.ahead).error := by
  obtain ⟨v, h⟩ := h
  have hnil := congrArg Outcome.error (h [])
  rw [List.append_nil, List.append_nil] at hnil
  exact hnil

end Follows

/-- What a turn does: it goes on with less, it stops at bytes that are no i3bar text, or it reads,
and then goes on behind the bytes it gets, or returns. -/
def TurnSpec (t : Tokener J) (st : I3barState J B) :
    Next (I3barState J B) ReadResult (Ending B) → Prop
  | .again st' => st'.Ok ∧ st'.rank < st.rank ∧ Follows t st.mode st.ahead st'
  | .stop r => (settle t st.mode st.ahead).error ≠ none ∧ ∃ text, r = .returned true (.error text)
  | .read take => (settle t st.mode st.ahead).error = none ∧
      (∀ d, take (.bytes d) = .inr .notRead ∨
        ∃ st', take (.bytes d) = .inl st' ∧ st'.Ok ∧ Follows t st.mode (st.ahead ++ d) st') ∧
      ∀ r, (∀ d, r ≠ .bytes d) → ∃ dirty s', take r = .inr (.returned dirty s') ∧ s'.Ok

section Turn

variable {t : Tokener J} {parseJson : J → B} {s : StatusLine B} {l : Reader J}

theorem checked_of_fit {σ ι : Type} {spans : List Span} {size : ℕ}
    {next : Next σ ι (Ending B)} (h : (spans.all fun a => a.fits size) = true) :
    checked spans size next = next :=
  if_pos h

/-- The array has begun in an earlier call. -/
theorem follows_started (hstarted : s.started = true) :
    Follows t s.mode s.buffer (.objects s (s.reader : Reader J)) := by
  refine ⟨none, fun y => ?_⟩
  rw [Outcome.after_none]
  show settle t s.mode (s.buffer ++ y) = settle t (s.reader : Reader J).mode (s.buffer ++ y)
  rw [reader_mode hstarted]

theorem mode_start (hstarted : ¬ s.started = true) : s.mode = .start := by
  unfold StatusLine.mode
  rw [if_neg hstarted]

/-- The array begins. -/
theorem follows_found {rest : List Char} (hmode : s.mode = .start)
    (hcomma : s.expectingComma = false) (hscan : scanFor '[' s.buffer = .found rest) :
    let s' := { s with started := true, buffer := rest }
    Follows t s.mode s.buffer (.objects s' (s'.reader : Reader J)) := by
  refine ⟨none, fun y => ?_⟩
  have hmore := scanFor_append '[' s.buffer y
  rw [hscan] at hmore
  rw [Outcome.after_none]
  show settle t s.mode (s.buffer ++ y) = settle t (if s.expectingComma then _ else _) _
  rw [hmode, settle_found rfl hmore, hcomma]
  rfl

/-- Blanks before the array are forgotten. -/
theorem follows_blank (hmode : s.mode = .start) (hscan : scanFor '[' s.buffer = .blank)
    (d : List Char) :
    Follows t s.mode (s.buffer ++ d) (.bracket { s with buffer := d }) := by
  refine ⟨none, fun y => ?_⟩
  have hmore := scanFor_append '[' s.buffer (d ++ y)
  rw [hscan, ← List.append_assoc] at hmore
  rw [Outcome.after_none]
  show settle t s.mode (s.buffer ++ d ++ y) = settle t s.mode (d ++ y)
  rw [hmode]
  exact settle_congr rfl hmore

/-- The first loop. -/
theorem bracket_spec (hok : (I3barState.bracket s : I3barState J B).Ok) :
    TurnSpec t (.bracket s) (bracketTurn s) := by
  obtain ⟨hfits, hexpects⟩ := hok
  unfold bracketTurn
  split
  next hstarted =>
    exact ⟨⟨hfits, Nat.zero_le _, hstarted⟩, Nat.lt_succ_self _, follows_started hstarted⟩
  next hstarted =>
    have hmode := mode_start hstarted
    have hspan : ([⟨0, s.buffer.length⟩] : List Span).all (fun a => a.fits s.bufferSize) = true := by
      simp only [List.all_cons, List.all_nil, Bool.and_true, fits_iff]
      have := hfits.1
      omega
    rw [checked_of_fit hspan]
    cases hscan : scanFor '[' s.buffer with
    | found rest =>
        have hlt := scanFor_length hscan
        have hcomma := hexpects (Bool.eq_false_iff.2 hstarted)
        refine ⟨⟨⟨?_, hfits.2⟩, Nat.zero_le _, rfl⟩, ?_, follows_found hmode hcomma hscan⟩
        · exact hlt.le.trans hfits.1
        · show rest.length - 0 < s.buffer.length + 1
          omega
    | invalid =>
        refine ⟨?_, invalidText, rfl⟩
        show (settle t s.mode s.buffer).error ≠ none
        rw [hmode, settle_invalid rfl hscan]
        exact Option.some_ne_none _
    | blank =>
        refine ⟨?_, fun d => ?_, fun r hr => ?_⟩
        · show (settle t s.mode s.buffer).error = none
          rw [hmode, settle_blank rfl hscan]
        · by_cases hd : d.length ≤ s.bufferSize
          · exact .inr ⟨.bracket { s with buffer := d }, if_pos hd, ⟨⟨hd, hfits.2⟩, hexpects⟩,
              follows_blank hmode hscan d⟩
          · exact .inl (if_neg hd)
        · cases r with
          | bytes d => exact absurd rfl (hr d)
          | again => exact ⟨false, .i3bar s, rfl, hfits, hexpects⟩
          | failed => exact ⟨true, .error readText, rfl, trivial⟩

/-- The second loop. -/
theorem objects_spec (hvis : t.Visible) (hok : (I3barState.objects s l).Ok) :
    TurnSpec t (.objects s l) (objectsTurn t parseJson s l) := by
  obtain ⟨hfits, hpos, hstarted⟩ := hok
  unfold objectsTurn
  rw [checked_of_fit (turnSpans_fit hvis hpos hfits)]
  cases hturn : turn t l with
  | again l' =>
      obtain ⟨hbuffer, hpos', v, -, hsettle⟩ := turn_again hturn
      refine ⟨⟨?_, hpos', hstarted⟩, turn_again_lt t hturn, v, hsettle⟩
      show Fits l'.buffer l'.bufferSize
      rw [hbuffer, turn_again_size hturn]
      exact hfits
  | fail l' text =>
      obtain ⟨-, hsettle⟩ := turn_fail hturn
      refine ⟨?_, text, rfl⟩
      show (settle t l.mode l.ahead).error ≠ none
      rw [hsettle]
      exact Option.some_ne_none _
  | read l' =>
      obtain ⟨hpos', -, v, -, hsettle⟩ := turn_read hturn hpos
      have hfits' := turn_read_fits hturn hfits
      refine ⟨?_, fun d => ?_, fun r hr => ?_⟩
      · show (settle t l.mode l.ahead).error = none
        rw [hsettle]
      · by_cases hd : l'.buffer.length + d.length ≤ l'.bufferSize
        · refine .inr ⟨.objects s { l' with buffer := l'.buffer ++ d }, if_pos hd, ⟨⟨?_, hfits'.2⟩, ?_,
            hstarted⟩, v, fun y => ?_⟩
          · show (l'.buffer ++ d).length ≤ l'.bufferSize
            rw [List.length_append]
            exact hd
          · show l'.pos ≤ (l'.buffer ++ d).length
            rw [List.length_append]
            omega
          · show settle t l.mode (l.ahead ++ d ++ y) =
              (settle t l'.mode (({ l' with buffer := l'.buffer ++ d } : Reader J).ahead ++ y)).after v
            rw [ahead_append hpos', List.append_assoc, List.append_assoc, settle_append, hsettle]
            rfl
        · exact .inl (if_neg hd)
      · cases r with
        | bytes d => exact absurd rfl (hr d)
        | again =>
            refine ⟨l'.lastObject.isSome, _, rfl, hfits', fun h => ?_⟩
            have hfalse : s.started = false := h
            rw [hstarted] at hfalse
            cases hfalse
        | failed => exact ⟨true, .error readText, rfl, trivial⟩

/-- **One turn.** -/
theorem i3barTurn_spec (parseJson : J → B) (hvis : t.Visible) {st : I3barState J B} (hok : st.Ok) :
    TurnSpec t st (i3barTurn t parseJson st) := by
  cases st with
  | bracket s => exact bracket_spec hok
  | objects s l => exact objects_spec hvis hok

/-- What has to be shown of one turn: where it goes on, where it reads, and where it ends. -/
theorem i3barTurn_turnTo (parseJson : J → B) (hvis : t.Visible) {st : I3barState J B} (hok : st.Ok)
    {reads : ℕ → ReadResult} {k : ℕ} {P : ℕ → I3barState J B → Prop} {Q : Ending B → Prop}
    (hagain : ∀ st', st'.Ok → st'.rank < st.rank → Follows t st.mode st.ahead st' → P k st')
    (hstop : (settle t st.mode st.ahead).error ≠ none → ∀ text, Q (.returned true (.error text)))
    (hbytes : (settle t st.mode st.ahead).error = none → ∀ d, reads k = .bytes d →
      ∀ st', st'.Ok → Follows t st.mode (st.ahead ++ d) st' → P (k + 1) st')
    (hend : (∀ d, reads k ≠ .bytes d) → ∀ dirty s', s'.Ok → Q (.returned dirty s'))
    (hnot : Q .notRead) : TurnTo (i3barTurn t parseJson) reads k st P Q := by
  have hspec := i3barTurn_spec parseJson hvis hok
  unfold TurnTo
  cases hturn : i3barTurn t parseJson st with
  | again st' =>
      rw [hturn] at hspec
      obtain ⟨hok', hrank, hfollows⟩ := hspec
      exact hagain st' hok' hrank hfollows
  | stop r =>
      rw [hturn] at hspec
      obtain ⟨herror, text, rfl⟩ := hspec
      exact hstop herror text
  | read take =>
      rw [hturn] at hspec
      obtain ⟨hclean, htakes, hother⟩ := hspec
      dsimp only
      by_cases hread : ∃ d, reads k = .bytes d
      · obtain ⟨d, hread⟩ := hread
        rw [hread]
        rcases htakes d with htake | ⟨st', htake, hok', hfollows⟩
        · rw [htake]
          exact hnot
        · rw [htake]
          exact hbytes hclean d hread st' hok' hfollows
      · have hnone : ∀ d, reads k ≠ .bytes d := fun d hd => hread ⟨d, hd⟩
        obtain ⟨dirty, s', htake, hok'⟩ := hother (reads k) hnone
        rw [htake]
        exact hend hnone dirty s' hok'

end Turn

/-! ## The calls of `i3bar_handle_readable` -/

/-- The call returned, and the buffer is as large as its size says. -/
def Ending.Fine (r : Ending B) : Prop := ∃ dirty s', r = .returned dirty s' ∧ s'.Ok

section Reads

variable {t : Tokener J} {parseJson : J → B} {reads : ℕ → ReadResult} {m : Mode} {x : List Char}
variable {st : I3barState J B} {k : ℕ} {r : Ending B}

theorem DataBefore.succ (h : DataBefore reads k) {d : List Char} (hd : d ≠ [])
    (hread : reads k = .bytes d) : DataBefore reads (k + 1) := by
  intro j hj
  rcases (Nat.lt_succ_iff.1 hj).lt_or_eq with hlt | rfl
  · exact h j hlt
  · exact ⟨d, hd, hread⟩

theorem bytesOf_succ {d : List Char} (hread : reads k = .bytes d) :
    bytesOf reads (k + 1) = bytesOf reads k ++ d := by
  rw [bytesOf, hread]

/-- **A call returns when its reads come to an end.** -/
theorem i3bar_returns (hvis : t.Visible) (hok : st.Ok) (hfollows : Follows t m x st)
    (hends : ReadsEnd t m x reads)
    (hlegal : ¬ EndsIn (i3barTurn t parseJson) reads 0 st .notRead) :
    ∃ r, EndsIn (i3barTurn t parseJson) reads 0 st r ∧ r.Fine := by
  obtain ⟨K, hdata, hend⟩ := hends
  refine exists_endsIn (I := fun k st => k ≤ K ∧ st.Ok ∧ Follows t m (x ++ bytesOf reads k) st ∧
    ¬ EndsIn (i3barTurn t parseJson) reads k st .notRead) K I3barState.rank (fun k st h => h.1) ?_
    ⟨Nat.zero_le K, hok, ?_, hlegal⟩
  · rintro k st ⟨hk, hok, hfollows, hlegal⟩
    have hturn : TurnTo (i3barTurn t parseJson) reads k st
        (fun k' st' => (k' ≤ K ∧ st'.Ok ∧ Follows t m (x ++ bytesOf reads k') st') ∧
          (k < k' ∨ st'.rank < st.rank))
        (fun r => r = .notRead ∨ r.Fine) := by
      refine i3barTurn_turnTo parseJson hvis hok ?_ ?_ ?_ ?_ (.inl rfl)
      · exact fun st' hok' hrank hstep => ⟨⟨hk, hok', hfollows.again hstep⟩, .inr hrank⟩
      · exact fun _ text => .inr ⟨true, .error text, rfl, trivial⟩
      · -- there were some bytes, so that this is not the end yet
        intro hclean d hread st' hok' hstep
        have hlt : k < K := by
          refine lt_of_le_of_ne hk ?_
          rintro rfl
          rcases hend with hend | hend
          · exact hend d hread
          · rw [hfollows.error_eq] at hend
            exact hend hclean
        refine ⟨⟨hlt, hok', ?_⟩, .inl (Nat.lt_succ_self k)⟩
        rw [bytesOf_succ hread, ← List.append_assoc]
        exact hfollows.trans hstep
      · exact fun _ dirty s' hok' => .inr ⟨dirty, s', rfl, hok'⟩
    refine (hturn.and (not_endsIn_turnTo hlegal)).mono ?_ fun r h => h.1.resolve_left h.2
    rintro k' st' ⟨⟨⟨hk', hok', hfollows'⟩, hless⟩, hnot⟩
    exact ⟨⟨hk', hok', hfollows', hnot⟩, hless⟩
  · rw [bytesOf, List.append_nil]
    exact hfollows

/-- **A call that returns has had its reads come to an end**: at the end of the file it goes on
reading, and nothing else follows. -/
theorem readsEnd_of_returns (hvis : t.Visible) (hok : st.Ok) (hfollows : Follows t m x st)
    (hlasts : ∀ k, reads k = .bytes [] → reads (k + 1) = .bytes [])
    {dirty : Bool} {s' : Status B}
    (h : EndsIn (i3barTurn t parseJson) reads 0 st (.returned dirty s')) :
    ReadsEnd t m x reads := by
  refine h.invariant (Q := fun r => r = .returned dirty s' → ReadsEnd t m x reads)
    (I := fun k st => st.Ok ∧
      (DataBefore reads k ∧ Follows t m (x ++ bytesOf reads k) st ∨
        reads k = .bytes [] ∧ (settle t st.mode st.ahead).error = none)) ?_ ?_ rfl
  · rintro k st ⟨hok, hcase⟩
    refine i3barTurn_turnTo parseJson hvis hok ?_ ?_ ?_ ?_ fun hfalse => by cases hfalse
    · intro st' hok' _ hstep
      refine ⟨hok', hcase.imp ?_ ?_⟩
      · exact fun ⟨hdata, hfollows⟩ => ⟨hdata, hfollows.again hstep⟩
      · exact fun ⟨heof, hclean⟩ => ⟨heof, hstep.error_eq ▸ hclean⟩
    · intro herror text _
      rcases hcase with ⟨hdata, hfollows⟩ | ⟨-, hclean⟩
      · exact ⟨k, hdata, .inr (by rw [hfollows.error_eq]; exact herror)⟩
      · exact absurd hclean herror
    · intro hclean d hread st' hok' hstep
      refine ⟨hok', ?_⟩
      by_cases hd : d = []
      · -- the end of the file, after which nothing comes
        refine .inr ⟨hlasts k (by rw [hread, hd]), ?_⟩
        rw [← hstep.error_eq, hd, List.append_nil]
        exact hclean
      · rcases hcase with ⟨hdata, hfollows⟩ | ⟨heof, -⟩
        · refine .inl ⟨hdata.succ hd hread, ?_⟩
          rw [bytesOf_succ hread, ← List.append_assoc]
          exact hfollows.trans hstep
        · rw [heof] at hread
          exact absurd (ReadResult.bytes.inj hread).symm hd
    · intro hnone _ _ _ _
      rcases hcase with ⟨hdata, -⟩ | ⟨heof, -⟩
      · exact ⟨k, hdata, .inl hnone⟩
      · exact absurd heof (hnone [])
  · refine ⟨hok, .inl ⟨fun j hj => absurd hj (Nat.not_lt_zero j), ?_⟩⟩
    rw [bytesOf, List.append_nil]
    exact hfollows

end Reads

/-! ## The calls of the text protocol -/

section Lines

variable {lines : ℕ → LineResult} {x : TextReader}

/-- Some bytes have been read, and they are in the buffer. -/
def TextReader.Ok (x : TextReader) : Prop := 1 ≤ x.readBytes ∧ x.readBytes ≤ x.bufferSize

/-- A turn that looks at the last byte that was read. -/
theorem textTurn_of_ok (h : x.Ok) : (textTurn x : Next TextReader LineResult (Ending B)) =
    .read (takeLine { x with buffer := chop x.buffer (x.readBytes - 1).toNat }) := by
  refine checked_of_fit ?_
  simp only [List.all_cons, List.all_nil, Bool.and_true, fits_iff]
  exact .inr ⟨by linarith [h.1], h.2⟩

/-- Without any bytes the turn looks in front of the buffer. -/
theorem textTurn_outside (h : x.readBytes < 1) :
    (textTurn x : Next TextReader LineResult (Ending B)) = .stop .outside := by
  refine if_neg fun hfits => ?_
  simp only [List.all_cons, List.all_nil, Bool.and_true, fits_iff] at hfits
  omega

/-- **A call returns when its lines come to an end.** -/
theorem text_returns (hok : x.Ok) (hends : LinesEnd lines) :
    ∃ r : Ending B, EndsIn textTurn lines 0 x r ∧ r.Fine := by
  obtain ⟨K, hlines, hend⟩ := hends
  refine exists_endsIn (I := fun k x => k ≤ K ∧ x.Ok) K (fun _ => 0) (fun k x h => h.1) ?_
    ⟨Nat.zero_le K, hok⟩
  rintro k x ⟨hk, hok⟩
  unfold TurnTo
  rw [textTurn_of_ok hok]
  dsimp only [takeLine]
  cases herrno : (lines k).errno with
  | again =>
      refine ⟨true, _, rfl, ?_⟩
      have hpos : 0 < x.bufferSize := by
        obtain ⟨h1, h2⟩ := hok
        omega
      exact lt_max_of_lt_left hpos
  | other => exact ⟨true, .error readText, rfl, trivial⟩
  | none =>
      have hlt : k < K := by
        refine lt_of_le_of_ne hk ?_
        rintro rfl
        exact hend herrno
      have hret := (hlines k hlt).2
      cases hline : (lines k).ret with
      | none => exact absurd hline hret
      | some l =>
          obtain ⟨hne, hlen⟩ := (lines k).line l hline
          have hpos := List.length_pos_iff.2 hne
          refine ⟨⟨hlt, ?_, ?_⟩, .inl (Nat.lt_succ_self k)⟩
          · show (1 : Int) ≤ l.length
            omega
          · show (l.length : Int) ≤ (max x.bufferSize (lines k).bufferSize : ℕ)
            have := le_max_right x.bufferSize (lines k).bufferSize
            omega

/-- **A call that returns has had its lines come to an end**, and there were some bytes. -/
theorem linesEnd_of_returns {dirty : Bool} {s' : Status B}
    (h : EndsIn textTurn lines 0 x (.returned dirty s')) : 1 ≤ x.readBytes ∧ LinesEnd lines := by
  constructor
  · by_contra hlt
    rw [endsIn_iff, TurnTo, textTurn_outside (not_le.1 hlt)] at h
    cases h
  · refine h.invariant (Q := fun r => r = .returned dirty s' → LinesEnd lines)
      (I := fun k x => (∀ j < k, (lines j).errno = .none ∧ (lines j).ret ≠ none) ∨
        x.readBytes = -1) ?_ (.inl fun j hj => absurd hj (Nat.not_lt_zero j)) rfl
    intro k x hcase
    unfold TurnTo
    rcases hcase with hlines | heof
    · by_cases hfits : ([⟨x.readBytes - 1, x.readBytes⟩] : List Span).all
          (fun a => a.fits x.bufferSize) = true
      · unfold textTurn
        rw [checked_of_fit hfits]
        dsimp only [takeLine]
        cases herrno : (lines k).errno with
        | again => exact fun _ => ⟨k, hlines, by rw [herrno]; decide⟩
        | other => exact fun _ => ⟨k, hlines, by rw [herrno]; decide⟩
        | none =>
            cases hline : (lines k).ret with
            | none => exact .inr rfl
            | some l =>
                refine .inl fun j hj => ?_
                rcases (Nat.lt_succ_iff.1 hj).lt_or_eq with hlt | rfl
                · exact hlines j hlt
                · exact ⟨herrno, by rw [hline]; exact Option.some_ne_none l⟩
      · unfold textTurn checked
        rw [if_neg hfits]
        exact fun hfalse => by cases hfalse
    · -- behind the end of the file the next turn fails
      rw [textTurn_outside (by rw [heof]; decide)]
      exact fun hfalse => by cases hfalse

end Lines

/-! ## The states between the calls -/

section Reached

variable {t : Tokener J} {parseJson : J → B} {header : List Char → Option Bool} {blocks : B}
variable {inp : StatusInput} {s s' : Status B} {dirty : Bool}

/-- A call of `i3bar_handle_readable` leaves a buffer as large as its size says. -/
theorem i3bar_ok (hvis : t.Visible) {reads : ℕ → ReadResult} {st : I3barState J B} (hok : st.Ok)
    {r : Ending B} (h : EndsIn (i3barTurn t parseJson) reads 0 st r) (hr : r = .returned dirty s') :
    s'.Ok := by
  refine h.invariant (Q := fun r => r = .returned dirty s' → s'.Ok) (I := fun _ st => st.Ok) ?_ hok hr
  intro k st hok
  refine i3barTurn_turnTo parseJson hvis hok ?_ ?_ ?_ ?_ fun hfalse => by cases hfalse
  · exact fun _ hok' _ _ => hok'
  · intro _ text heq
    obtain ⟨-, rfl⟩ := Ending.returned.inj heq
    trivial
  · exact fun _ _ _ _ hok' _ => hok'
  · intro _ dirty' s'' hok' heq
    obtain ⟨-, rfl⟩ := Ending.returned.inj heq
    exact hok'

/-- So does a call of the text protocol. -/
theorem text_ok {lines : ℕ → LineResult} {x : TextReader} (hpos : 0 < x.bufferSize) {r : Ending B}
    (h : EndsIn textTurn lines 0 x r) (hr : r = .returned dirty s') : s'.Ok := by
  refine h.invariant (Q := fun r => r = .returned dirty s' → s'.Ok)
    (I := fun _ x => 0 < x.bufferSize) ?_ hpos hr
  intro k x hpos
  unfold TurnTo textTurn checked
  split
  next heq =>
    split at heq
    · cases heq
    · cases heq
  next r heq =>
    split at heq
    · cases heq
    · obtain rfl := Next.stop.inj heq
      exact fun hfalse => by cases hfalse
  next take heq =>
    split at heq
    · obtain rfl := Next.read.inj heq
      dsimp only [takeLine]
      cases (lines k).errno with
      | again =>
          intro hreturned
          obtain ⟨-, rfl⟩ := Ending.returned.inj hreturned
          exact lt_max_of_lt_left hpos
      | other =>
          intro hreturned
          obtain ⟨-, rfl⟩ := Ending.returned.inj hreturned
          trivial
      | none => exact lt_max_of_lt_left hpos
    · cases heq

/-! ## The first call -/

/-- What comes after a header is shorter than what was read. -/
theorem i3barHeader_length {d rest : List Char} {clicks : Bool}
    (h : i3barHeader header d = some (clicks, rest)) : rest.length < d.length := by
  unfold i3barHeader at h
  dsimp only at h
  split at h
  next a rest' clicks' hdrop _ =>
    obtain ⟨-, rfl⟩ := Prod.mk.inj (Option.some.inj h)
    have hlen := (List.dropWhile_suffix (l := content '\x00' d) (· ≠ '\n')).length_le
    rw [hdrop, List.length_cons] at hlen
    have hcontent : (content '\x00' d).length ≤ d.length := (List.takeWhile_prefix _).length_le
    omega
  · cases h

/-- A first call that got all there was opens a protocol, in a buffer with room for a null
character; any other one ends with an error. -/
theorem openStatus_cases (header : List Char → Option Bool) (blocks : B) (inp : StatusInput)
    (size : ℕ) :
    (∃ d size', inp.greeting = some d ∧ d.length < size' ∧
        openStatus header blocks inp size = openProtocol header blocks inp size' d.length d) ∨
      inp.greeting = none ∧ (openStatus header blocks inp size = .ends .notRead ∨
        openStatus header blocks inp size = .ends (.returned true (.error readText))) := by
  unfold openStatus StatusInput.greeting
  cases havail : inp.available with
  | none => exact .inr ⟨rfl, .inr rfl⟩
  | some n =>
      cases hfirst : inp.first with
      | again => exact .inr ⟨rfl, .inr rfl⟩
      | failed => exact .inr ⟨rfl, .inr rfl⟩
      | bytes d =>
          dsimp only
          by_cases hlen : d.length = n
          · refine .inl ⟨d, if size < n + 1 then n + 1 else size, if_pos hlen, ?_, ?_⟩
            · split <;> omega
            · have hfits : Span.fits ⟨0, n + 1⟩ (if size < n + 1 then n + 1 else size) = true := by
                rw [fits_iff]
                split
                · exact .inr ⟨le_rfl, by push_cast; exact le_rfl⟩
                · refine .inr ⟨le_rfl, ?_⟩
                  dsimp only
                  omega
              rw [if_neg (by omega), if_neg (not_not.2 hlen), if_pos hfits, hlen]
          · refine .inr ⟨if_neg hlen, ?_⟩
            by_cases hmore : n < d.length
            · exact .inl (if_pos hmore)
            · right
              rw [if_neg hmore, if_pos hlen]

/-- What follows the header begins the array, in a buffer that holds it. -/
theorem start_ok {d rest : List Char} {clicks : Bool} {size : ℕ}
    (h : i3barHeader header d = some (clicks, rest)) (hsize : d.length < size) :
    (Status.i3bar (StatusLine.start blocks size rest)).Ok := by
  have hlen := i3barHeader_length h
  exact ⟨⟨by show rest.length ≤ size; omega, by show 0 < size; omega⟩, fun _ => rfl⟩

/-- The end of a call, once it is known how it goes on. -/
def Opening.EndsIn (t : Tokener J) (parseJson : J → B) (inp : StatusInput) (o : Opening B)
    (e : Ending B) : Prop :=
  match o with
  | .ends e' => e' = e
  | .text x => Lib.EndsIn textTurn inp.lines 0 x e
  | .i3bar s => Lib.EndsIn (i3barTurn t parseJson) inp.reads 0 (.bracket s) e

theorem callEnds_iff {e : Ending B} : CallEnds t parseJson header blocks s inp e ↔
    (s.enter header blocks inp).EndsIn t parseJson inp e := by
  unfold CallEnds statusHandle Opening.EndsIn
  cases s.enter header blocks inp with
  | ends e' => exact ⟨fun ⟨_, h⟩ => Option.some.inj h, fun h => ⟨0, congrArg some h⟩⟩
  | text x => exact Iff.rfl
  | i3bar s => exact Iff.rfl

/-- **A call ends in one way only.** -/
theorem CallEnds.unique {e e' : Ending B} (h : CallEnds t parseJson header blocks s inp e)
    (h' : CallEnds t parseJson header blocks s inp e') : e = e' := by
  rw [callEnds_iff] at h h'
  unfold Opening.EndsIn at h h'
  cases hopen : s.enter header blocks inp with
  | ends r =>
      rw [hopen] at h h'
      exact h.symm.trans h'
  | text x =>
      rw [hopen] at h h'
      exact Lib.EndsIn.unique h h'
  | i3bar s =>
      rw [hopen] at h h'
      exact Lib.EndsIn.unique h h'

/-- What a call goes on with: a buffer as large as its size says, and the bytes of it that were
read. -/
def Opening.Ok : Opening B → Prop
  | .ends e => e = .notRead ∨ e.Fine
  | .text x => 0 < x.bufferSize ∧ x.readBytes ≤ x.bufferSize
  | .i3bar s => (Status.i3bar s).Ok

theorem openProtocol_ok {d : List Char} {size : ℕ} (hsize : d.length < size) :
    (openProtocol header blocks inp size d.length d).Ok := by
  unfold openProtocol
  cases hheader : i3barHeader header d with
  | none => exact ⟨by show 0 < size; omega, by show (d.length : Int) ≤ size; omega⟩
  | some r =>
      obtain ⟨clicks, rest⟩ := r
      dsimp only
      split
      · exact .inr ⟨true, .error writeText, rfl, trivial⟩
      · exact start_ok hheader hsize

theorem Status.enter_ok (header : List Char → Option Bool) (blocks : B) (inp : StatusInput)
    (hok : s.Ok) : (s.enter header blocks inp).Ok := by
  cases s with
  | error text => exact .inr ⟨false, .error text, rfl, trivial⟩
  | text buffer size => exact ⟨hok, by show (1 : Int) ≤ size; exact_mod_cast hok⟩
  | i3bar s => exact hok
  | undef size =>
      show (openStatus header blocks inp size).Ok
      rcases openStatus_cases header blocks inp size with ⟨d, size', -, hsize, hopen⟩ | ⟨-, hopen | hopen⟩
      · rw [hopen]
        exact openProtocol_ok hsize
      · rw [hopen]
        exact .inl rfl
      · rw [hopen]
        exact .inr ⟨true, .error readText, rfl, trivial⟩

/-! ## Every call -/

/-- A call from a sound state returns in a sound state. -/
theorem call_ok (hvis : t.Visible) (hok : s.Ok)
    (h : CallEnds t parseJson header blocks s inp (.returned dirty s')) : s'.Ok := by
  rw [callEnds_iff] at h
  have henter := Status.enter_ok header blocks inp hok
  cases hopen : s.enter header blocks inp with
  | ends e =>
      rw [hopen] at h henter
      obtain rfl : e = .returned dirty s' := h
      rcases henter with hnot | ⟨dirty', s'', heq, hok'⟩
      · cases hnot
      · obtain ⟨-, rfl⟩ := Ending.returned.inj heq
        exact hok'
  | text x =>
      rw [hopen] at h henter
      exact text_ok henter.1 h rfl
  | i3bar s =>
      rw [hopen] at h henter
      have hbracket : (I3barState.bracket s : I3barState J B).Ok := henter
      exact i3bar_ok hvis hbracket h rfl

theorem Reached.ok (hvis : t.Visible) (h : Reached t parseJson header blocks s) : s.Ok := by
  induction h with
  | init => exact Nat.succ_pos _
  | hangup _ _ => trivial
  | call inp dirty _ hcall ih => exact call_ok hvis ih hcall

/-- What the rest of a call is given comes to an end before the end of the file. -/
def Opening.InputEnds (t : Tokener J) (inp : StatusInput) : Opening B → Prop
  | .ends _ => True
  | .text x => 1 ≤ x.readBytes ∧ LinesEnd inp.lines
  | .i3bar s => ReadsEnd t s.mode s.buffer inp.reads

/-- The condition on what a call is given is that on what it goes on with. -/
theorem inputEnds_iff (t : Tokener J) (header : List Char → Option Bool) (blocks : B)
    (inp : StatusInput) (s : Status B) :
    InputEnds t header inp s ↔ (s.enter header blocks inp).InputEnds t inp := by
  cases s with
  | error text => exact Iff.rfl
  | text buffer size => exact ⟨fun h => ⟨le_rfl, h⟩, fun h => h.2⟩
  | i3bar s => exact Iff.rfl
  | undef size =>
      show GreetingEnds t header inp ↔ (openStatus header blocks inp size).InputEnds t inp
      unfold GreetingEnds
      rcases openStatus_cases header blocks inp size with
        ⟨d, size', hgreeting, -, hopen⟩ | ⟨hgreeting, hopen⟩
      · rw [hopen, hgreeting]
        unfold openProtocol
        have hd : ∀ P : List Char → Prop, (∀ e, some d = some e → P e) ↔ P d := fun P =>
          ⟨fun h => h d rfl, fun h e he => Option.some.inj he ▸ h⟩
        rw [hd]
        cases hheader : i3barHeader header d with
        | none =>
            show d ≠ [] ∧ _ ↔ (1 : Int) ≤ d.length ∧ _
            rw [← List.length_pos_iff]
            exact and_congr_left fun _ => by omega
        | some r =>
            obtain ⟨clicks, rest⟩ := r
            dsimp only
            split
            next hwrite => exact iff_of_true (.inl hwrite) trivial
            next hwrite => exact ⟨fun h => h.resolve_left hwrite, .inr⟩
      · rw [hgreeting]
        refine iff_of_true (fun d hd => by cases hd) ?_
        rcases hopen with hopen | hopen
        · rw [hopen]
          trivial
        · rw [hopen]
          trivial

end Reached

section Returns

variable {t : Tokener J} {parseJson : J → B} {header : List Char → Option Bool} {blocks : B}

/-- **A call returns exactly when what it is given comes to an end before the end of the file**: in
every state the status line can be in, whatever `ioctl`, `read` and `getline` return. -/
theorem statusHandleReadable_returns_iff (hvis : t.Visible) {s : Status B}
    (hs : Reached t parseJson header blocks s) (inp : StatusInput) (hlasts : inp.EofLasts)
    (hlegal : ¬ CallEnds t parseJson header blocks s inp .notRead) :
    Returns t parseJson header blocks s inp ↔ InputEnds t header inp s := by
  have henter := Status.enter_ok header blocks inp (hs.ok hvis)
  rw [inputEnds_iff t header blocks inp s]
  unfold Returns
  rw [callEnds_iff] at hlegal
  simp only [callEnds_iff]
  cases hopen : s.enter header blocks inp with
  | ends e =>
      rw [hopen] at henter hlegal
      rcases henter with rfl | ⟨dirty, s', rfl, -⟩
      · exact absurd rfl hlegal
      · exact iff_of_true ⟨dirty, s', rfl⟩ trivial
  | text x =>
      rw [hopen] at henter
      constructor
      · rintro ⟨dirty, s', hends⟩
        exact linesEnd_of_returns hends
      · rintro ⟨hbytes, hlines⟩
        obtain ⟨r, hr, dirty, s', rfl, -⟩ := text_returns (B := B) ⟨hbytes, henter.2⟩ hlines
        exact ⟨dirty, s', hr⟩
  | i3bar s =>
      rw [hopen] at henter hlegal
      have hbracket : (I3barState.bracket s : I3barState J B).Ok := henter
      have hfollows : Follows t s.mode s.buffer (I3barState.bracket s) := Follows.refl (.bracket s)
      constructor
      · rintro ⟨dirty, s', hends⟩
        exact readsEnd_of_returns hvis hbracket hfollows hlasts.1 hends
      · intro hreads
        obtain ⟨r, hr, dirty, s', rfl, -⟩ :=
          i3bar_returns hvis hbracket hfollows hreads hlegal
        exact ⟨dirty, s', hr⟩

end Returns

/-! ## The end of the file -/

theorem scanFor_found {c : Char} {x rest : List Char} (h : scanFor c x = .found rest) :
    ∃ before, x = before ++ c :: rest := by
  induction x with
  | nil => cases h
  | cons a x ih =>
      rw [scanFor] at h
      split at h
      next hac =>
        obtain rfl := Scan.found.inj h
        exact ⟨[], by rw [hac, List.nil_append]⟩
      · split at h
        · obtain ⟨before, rfl⟩ := ih h
          exact ⟨a :: before, rfl⟩
        · cases h

/-- A value of `emptyArrays` has its brackets. -/
theorem visible_emptyArrays : emptyArrays.Visible := by
  intro x v n hparse
  obtain ⟨inner, rest, hscan, hscan', -, rfl⟩ := parseEmptyArray_success hparse
  obtain ⟨before, rfl⟩ := scanFor_found hscan
  have hlt := scanFor_length hscan'
  refine ⟨'[', ?_, by decide⟩
  -- the opening bracket is among the characters up to the closing one
  have hsplit : before ++ '[' :: inner = (before ++ ['[']) ++ inner := by
    rw [List.append_assoc, List.singleton_append]
  have hle : (before ++ ['[']).length ≤ (before ++ '[' :: inner).length - rest.length := by
    simp only [List.length_append, List.length_cons, List.length_nil]
    omega
  rw [hsplit] at hle ⊢
  rw [List.take_append, List.take_of_length_le hle]
  simp

/-- The header of the i3bar protocol. -/
def headerLine : List Char := "\x7b\"version\":1\x7d\n".toList

/-- The header, without click events. -/
def plainHeader (x : List Char) : Option Bool := if x = headerLine then some false else none

/-- The status command writes something, and `getline` returns something else from then on; there
is nothing more for `read`. -/
def writes (d : List Char) (r : LineResult) : StatusInput where
  available := some d.length
  first := .bytes d
  written := true
  reads _ := .bytes []
  lines _ := r

def eofResult : LineResult := ⟨none, .none, 0, fun _ h => by cases h⟩
def againResult : LineResult := ⟨none, .again, 0, fun _ h => by cases h⟩

theorem eofLasts_writes (d : List Char) (r : LineResult) : (writes d r).EofLasts :=
  ⟨fun _ _ => rfl, fun _ h => h⟩

/-- A line of text, and then `EAGAIN`: the first call returns. -/
theorem statusHandleReadable_returns_line :
    Returns emptyArrays id plainHeader 0 (.undef 8192) (writes ['h', 'i', '\n'] againResult) := by
  have hcall : CallEnds emptyArrays id plainHeader 0 (.undef 8192)
      (writes ['h', 'i', '\n'] againResult)
      (.returned true (.text ['h', 'i', '\x00', '\x00'] 8192)) := ⟨1, rfl⟩
  have hlegal : ¬ CallEnds emptyArrays id plainHeader 0 (.undef 8192)
      (writes ['h', 'i', '\n'] againResult) .notRead := by
    intro h
    cases hcall.unique h
  refine (statusHandleReadable_returns_iff visible_emptyArrays Reached.init _
    (eofLasts_writes _ _) hlegal).2 ?_
  intro d hd
  obtain rfl : ['h', 'i', '\n'] = d := Option.some.inj hd
  have hheader : i3barHeader plainHeader ['h', 'i', '\n'] = none := rfl
  rw [hheader]
  exact ⟨by decide, 0, fun j hj => absurd hj (Nat.not_lt_zero j), by decide⟩

/-- When the status command ends behind a line of text, the first call looks in front of the buffer;
when it ends behind the header, the first call does not end. -/
theorem statusHandleReadable_endOfFile :
    (writes ['h', 'i', '\n'] eofResult).EofLasts ∧ (writes headerLine eofResult).EofLasts ∧
      (CallEnds emptyArrays id plainHeader 0 (.undef 8192) (writes ['h', 'i', '\n'] eofResult)
          .outside ∧
        ¬ Returns emptyArrays id plainHeader 0 (.undef 8192) (writes ['h', 'i', '\n'] eofResult)) ∧
      ∀ e, ¬ CallEnds emptyArrays id plainHeader 0 (.undef 8192) (writes headerLine eofResult) e := by
  have hout : CallEnds emptyArrays id plainHeader 0 (.undef 8192)
      (writes ['h', 'i', '\n'] eofResult) .outside := ⟨2, rfl⟩
  refine ⟨eofLasts_writes _ _, eofLasts_writes _ _, ⟨hout, ?_⟩, fun e h => ?_⟩
  · rintro ⟨dirty, s', hreturned⟩
    cases hout.unique hreturned
  -- behind the header the look for the bracket reads nothing, again and again
  rw [callEnds_iff] at h
  have henter : (Status.undef 8192).enter plainHeader 0 (writes headerLine eofResult) =
      .i3bar (StatusLine.start 0 8192 []) := rfl
  rw [henter] at h
  refine not_endsIn (I := fun _ st => st = .bracket (StatusLine.start 0 8192 [])) ?_ rfl e h
  rintro k st rfl
  exact rfl

end Swirl.Swaybar
