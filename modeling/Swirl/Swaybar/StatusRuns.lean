import Swirl.Swaybar.Chunking
import Swirl.Lib.Runs

set_option autoImplicit false

/-! # The calls of the status line

Between two calls the status line is at a place of the stream that its buffer leads to (`Pending`).
A call that takes neither of two branches comes to what all bytes come to, and to such a place
again, so that two such runs over the same bytes end alike, wherever the stream is cut. The first
branch forgets which bytes were consumed, the second one drops an array.
-/

namespace Swirl.Swaybar

variable {J B : Type} {t : Tokener J} {parseJson : J → B}

/-- What comes next for the status line. -/
def StatusLine.mode (s : StatusLine B) : Mode :=
  if s.started then (if s.expectingComma then .comma else .value) else .start

/-- The blocks that show an array. -/
def shown (parseJson : J → B) (blocks : B) (last : Option J) : B := (last.map parseJson).getD blocks

theorem shown_or (blocks : B) (u v : Option J) :
    shown parseJson blocks (u.or v) = shown parseJson (shown parseJson blocks v) u := by
  cases u with
  | none => rfl
  | some _ => rfl

theorem reader_mode {s : StatusLine B} (h : s.started = true) :
    (s.reader : Reader J).mode = s.mode := by
  unfold Reader.mode StatusLine.mode StatusLine.reader
  rw [if_pos h]

/-! ## The opening bracket -/

/-- What the look for the opening bracket comes to. -/
def Begun.Comes (t : Tokener J) (s : StatusLine B) (reads : List (List Char)) : Begun B → Prop
  | .begun s' reads' => (∃ rest, s' = { s with started := true, buffer := rest }) ∧
      settle t .start (s.buffer ++ reads.flatten) = settle t .value (s'.buffer ++ reads'.flatten)
  | .wait s' => (∃ blanks, s' = { s with buffer := blanks } ∧ scanFor '[' blanks = .blank) ∧
      settle t .start (s.buffer ++ reads.flatten) =
        { mode := .start, rest := [], last := none, error := none }
  | .fail s' => (∃ bytes, s' = { s with buffer := bytes, error := some invalidText }) ∧
      settle t .start (s.buffer ++ reads.flatten) =
        { mode := .start, rest := [], last := none, error := some invalidText }

theorem lookInBuffer_comes (t : Tokener J) (s : StatusLine B) (reads : List (List Char))
    {next : Begun B} (hnext : scanFor '[' s.buffer = .blank → next.Comes t s reads) :
    (lookInBuffer s reads next).Comes t s reads := by
  have happend := scanFor_append '[' s.buffer reads.flatten
  unfold lookInBuffer
  cases hscan : scanFor '[' s.buffer with
  | found rest =>
      rw [hscan] at happend
      exact ⟨⟨rest, rfl⟩, settle_found rfl happend⟩
  | invalid =>
      rw [hscan] at happend
      exact ⟨⟨s.buffer, rfl⟩, settle_invalid rfl happend⟩
  | blank => exact hnext hscan

theorem lookForBracket_comes (t : Tokener J) (s : StatusLine B) (reads : List (List Char)) :
    (lookForBracket s reads).Comes t s reads := by
  induction reads generalizing s with
  | nil =>
      refine lookInBuffer_comes t s [] fun hblank => ⟨⟨s.buffer, rfl, hblank⟩, ?_⟩
      rw [List.flatten_nil, List.append_nil]
      exact settle_blank rfl hblank
  | cons r reads ih =>
      refine lookInBuffer_comes t s (r :: reads) fun hblank => ?_
      -- the buffer was blank: the bytes that are left come to the same
      have hsame : settle t .start (s.buffer ++ (r :: reads).flatten) =
          settle t .start (r ++ reads.flatten) := by
        have happend := scanFor_append '[' s.buffer (r :: reads).flatten
        rw [hblank] at happend
        exact settle_congr rfl happend
      have hcomes := ih { s with buffer := r }
      cases hbegun : lookForBracket { s with buffer := r } reads with
      | begun s' reads' =>
          rw [hbegun] at hcomes
          exact ⟨hcomes.1, hsame.trans hcomes.2⟩
      | wait s' =>
          rw [hbegun] at hcomes
          exact ⟨hcomes.1, hsame.trans hcomes.2⟩
      | fail s' =>
          rw [hbegun] at hcomes
          exact ⟨hcomes.1, hsame.trans hcomes.2⟩

/-! ## The last turn of a call -/

/-- The loop makes its last turn from `e`. -/
inductive LastTurn (t : Tokener J) : List (List Char) → Reader J → Reader J → Prop
  | again {reads : List (List Char)} {l l' e : Reader J} :
      turn t l = .again l' → LastTurn t reads l' e → LastTurn t reads l e
  | read {r : List Char} {reads : List (List Char)} {l l' e : Reader J} :
      turn t l = .read l' → LastTurn t reads { l' with buffer := l'.buffer ++ r } e →
      LastTurn t (r :: reads) l e
  | eagain {e l' : Reader J} : turn t e = .read l' → LastTurn t [] e e
  | fail {reads : List (List Char)} {e l' : Reader J} {text : String} :
      turn t e = .fail l' text → LastTurn t reads e e

theorem loop_lastTurn (t : Tokener J) (reads : List (List Char)) (l : Reader J) :
    ∃ e, LastTurn t reads l e ∧ (turn t e = .read (loop t reads l).1 ∧ (loop t reads l).2 = none ∨
      ∃ text, turn t e = .fail (loop t reads l).1 text ∧ (loop t reads l).2 = some text) := by
  induction reads, l using loop.induct t with
  | case1 reads l l' hturn ih =>
      obtain ⟨e, hlast, hend⟩ := ih
      rw [loop_again hturn]
      exact ⟨e, .again hturn hlast, hend⟩
  | case2 l l' hturn =>
      rw [loop_nil hturn]
      exact ⟨l, .eagain hturn, Or.inl ⟨hturn, rfl⟩⟩
  | case3 l l' hturn r reads ih =>
      obtain ⟨e, hlast, hend⟩ := ih
      rw [loop_cons hturn]
      exact ⟨e, .read hturn hlast, hend⟩
  | case4 reads l l' text hturn =>
      rw [loop_fail hturn]
      exact ⟨l, .fail hturn, Or.inr ⟨text, hturn, rfl⟩⟩

theorem LastTurn.unique {reads : List (List Char)} {l e e' : Reader J}
    (h : LastTurn t reads l e) (h' : LastTurn t reads l e') : e = e' := by
  induction h with
  | again hturn _ ih =>
      cases h' with
      | again hturn' hlast => exact ih (Turn.again.inj (hturn.symm.trans hturn') ▸ hlast)
      | read hturn' _ => cases hturn.symm.trans hturn'
      | eagain hturn' => cases hturn.symm.trans hturn'
      | fail hturn' => cases hturn.symm.trans hturn'
  | read hturn _ ih =>
      cases h' with
      | again hturn' _ => cases hturn.symm.trans hturn'
      | read hturn' hlast => exact ih (Turn.read.inj (hturn.symm.trans hturn') ▸ hlast)
      | fail hturn' => cases hturn.symm.trans hturn'
  | eagain hturn =>
      cases h' with
      | again hturn' _ => cases hturn.symm.trans hturn'
      | eagain _ => rfl
      | fail _ => rfl
  | fail hturn =>
      cases h' with
      | again hturn' _ => cases hturn.symm.trans hturn'
      | read hturn' _ => cases hturn.symm.trans hturn'
      | eagain _ => rfl
      | fail _ => rfl

/-- The turn doubles the full buffer, at the front of which a comma and more were consumed; when
the call ends there, nothing tells the next one so. -/
def Reader.LosesPlace (t : Tokener J) (e : Reader J) : Prop :=
  e.expectingComma = false ∧ t.parse (e.buffer.drop e.pos) = .more ∧
    e.bufferSize ≤ e.buffer.length ∧ e.pos ≠ 0 ∧ ∃ rest, scanFor ',' e.buffer = .found rest

/-- The turn meets an error behind an array of this call, which is dropped. -/
def Reader.DropsArray (t : Tokener J) (e : Reader J) : Prop :=
  e.lastObject ≠ none ∧ ∃ l text, turn t e = .fail l text

/-- A call whose last turn takes neither branch. -/
def Careful (t : Tokener J) (s : StatusLine B) (reads : List (List Char)) : Prop :=
  s.error = none → ∀ s' reads' e, beginArray s reads = .begun s' reads' →
    LastTurn t reads' s'.reader e → ¬ e.LosesPlace t ∧ ¬ e.DropsArray t

/-- A call is careful when its last turn waits for more, and the buffer is not full. -/
theorem careful_of_lastTurn {s s' : StatusLine B} {reads reads' : List (List Char)}
    {e l : Reader J} (hbegun : beginArray s reads = .begun s' reads')
    (hlast : LastTurn t reads' s'.reader e) (hread : turn t e = .read l)
    (hfits : e.buffer.length < e.bufferSize) : Careful t s reads := by
  intro _ s'' reads'' e' hbegun' hlast'
  obtain ⟨rfl, rfl⟩ := Begun.begun.inj (hbegun.symm.trans hbegun')
  obtain rfl := hlast.unique hlast'
  refine ⟨fun h => Nat.not_le_of_lt hfits h.2.2.1, fun h => ?_⟩
  obtain ⟨-, l', text, hfail⟩ := h
  cases hread.symm.trans hfail

theorem keepsPlace_of_turn {e l : Reader J} (hturn : turn t e = .read l)
    (h : ¬ e.LosesPlace t) : l.KeepsPlace := by
  by_contra hloses
  unfold Reader.KeepsPlace at hloses
  push Not at hloses
  obtain ⟨hpos, rest, hscan⟩ := hloses
  apply h
  unfold turn at hturn
  split at hturn
  · split at hturn
    · dsimp only at hturn
      split at hturn
      · cases hturn
      · obtain rfl := Turn.read.inj hturn
        exact absurd rfl hpos
    · obtain rfl := Turn.read.inj hturn
      exact absurd rfl hpos
    · cases hturn
  next hcomma =>
    split at hturn
    · dsimp only at hturn
      split at hturn
      · cases hturn
      · obtain rfl := Turn.read.inj hturn
        exact absurd rfl hpos
    next hparse =>
      split at hturn
      · obtain rfl := Turn.read.inj hturn
        exact absurd rfl hpos
      next hfull =>
        obtain rfl := Turn.read.inj hturn
        exact ⟨Bool.eq_false_iff.mpr hcomma, hparse, Nat.le_of_not_lt hfull, hpos, rest, hscan⟩
    · cases hturn

/-! ## One call -/

/-- The status line has come to what some bytes come to; `blocks` are those of the start. -/
structure Settled (t : Tokener J) (parseJson : J → B) (blocks : B) (s : StatusLine B)
    (bytes : List Char) : Prop where
  mode : s.mode = (settle t .start bytes).mode
  error : s.error = (settle t .start bytes).error
  shows : s.blocks = shown parseJson blocks (settle t .start bytes).last
  expects : s.started = false → s.expectingComma = false

/-- From its buffer the status line comes to what some bytes come to: `last` is shown, and `again`
is what the buffer still has of it. -/
structure Pending (t : Tokener J) (parseJson : J → B) (blocks : B) (s : StatusLine B)
    (bytes : List Char) (r : Outcome J) (last again : Option J) : Prop where
  bytes_settle : settle t .start bytes = r.after last
  buffer_settle : settle t s.mode s.buffer = r.after again
  shows : s.blocks = shown parseJson blocks last
  again_or : again = none ∨ again = last
  error : s.error = none
  expects : s.started = false → s.expectingComma = false

section Call

variable {blocks : B} {s : StatusLine B} {bytes : List Char} {reads : List (List Char)}
variable {r : Outcome J} {last again : Option J}

theorem Pending.start (t : Tokener J) (parseJson : J → B) (blocks : B) (n : Nat)
    (buffer : List Char) :
    Pending t parseJson blocks (StatusLine.start blocks n buffer) buffer (settle t .start buffer)
      none none :=
  { bytes_settle := (Outcome.after_none _).symm
    buffer_settle := (Outcome.after_none _).symm
    shows := rfl
    again_or := Or.inl rfl
    error := rfl
    expects := fun _ => rfl }

/-- More bytes, for what was at its place. -/
theorem Pending.more (h : Pending t parseJson blocks s bytes r last again) (y : List Char) :
    settle t .start (bytes ++ y) = (r.resume t y).after last ∧
      settle t s.mode (s.buffer ++ y) = (r.resume t y).after again := by
  constructor
  · rw [settle_append, h.bytes_settle, Outcome.resume_after]
  · rw [settle_append, h.buffer_settle, Outcome.resume_after]

/-- What was shown before and what this call has completed. -/
theorem shown_last {u : Option J} (hagain : again = none ∨ again = last) :
    shown parseJson (shown parseJson blocks last) (u.or again) =
      shown parseJson blocks (u.or last) := by
  rw [shown_or]
  cases u with
  | some _ => rfl
  | none =>
      rcases hagain with rfl | rfl
      · rfl
      · cases again <;> rfl

/-- What the second loop leaves. -/
theorem readObjects_eq (t : Tokener J) (parseJson : J → B) (s : StatusLine B)
    (reads : List (List Char)) : readObjects t parseJson s reads =
      { buffer := (loop t reads s.reader).1.buffer
        bufferSize := (loop t reads s.reader).1.bufferSize
        started := s.started
        expectingComma := (loop t reads s.reader).1.expectingComma
        blocks := if (loop t reads s.reader).2.isSome then s.blocks else
          shown parseJson s.blocks (loop t reads s.reader).1.lastObject
        error := (loop t reads s.reader).2.or s.error } := by
  unfold readObjects
  dsimp only
  cases (loop t reads s.reader).2 with
  | some text => rfl
  | none =>
      cases (loop t reads s.reader).1.lastObject with
      | some v => rfl
      | none => rfl

/-- **The loop of a careful call** comes to what all bytes come to, and keeps to its place. -/
theorem readObjects_settled {e : Reader J} (hstarted : s.started = true) (herror : s.error = none)
    (hshows : s.blocks = shown parseJson blocks last) (hagain : again = none ∨ again = last)
    (hbytes : settle t .start bytes = r.after last)
    (hbuffer : settle t s.mode (s.buffer ++ reads.flatten) = r.after again)
    (hend : turn t e = .read (loop t reads s.reader).1 ∧ (loop t reads s.reader).2 = none ∨
      ∃ text, turn t e = .fail (loop t reads s.reader).1 text ∧
        (loop t reads s.reader).2 = some text)
    (hplace : ¬ e.LosesPlace t) (hdrops : ¬ e.DropsArray t) :
    Settled t parseJson blocks (readObjects t parseJson s reads) bytes ∧
      ((readObjects t parseJson s reads).error = none → ∃ r' last' again',
        Pending t parseJson blocks (readObjects t parseJson s reads) bytes r' last' again') := by
  obtain ⟨hdone, hstops⟩ := loop_spec t reads s.reader (Nat.zero_le _) (front_of_zero rfl)
  rw [readObjects_eq]
  generalize loop t reads s.reader = res at *
  obtain ⟨l, error⟩ := res
  rw [reader_mode hstarted] at hdone
  have hcomes : r.after again = l.done error := by
    rw [← hbuffer]
    exact (Outcome.after_none _).symm.trans hdone
  have hrmode : r.mode = l.mode := congrArg Outcome.mode hcomes
  have hmode : (if s.started then (if l.expectingComma then Mode.comma else .value) else .start) =
      l.mode := if_pos hstarted
  have hrerror : r.error = error := congrArg Outcome.error hcomes
  have hrlast : r.last.or again = l.lastObject := congrArg Outcome.last hcomes
  rcases hend with ⟨hturn, rfl⟩ | ⟨text, hturn, rfl⟩
  · -- the call waits for more
    have hrrest : r.rest = l.ahead := congrArg Outcome.rest hcomes
    have hshows' : shown parseJson s.blocks l.lastObject =
        shown parseJson blocks (r.last.or last) := by
      rw [hshows, ← hrlast]
      exact shown_last hagain
    refine ⟨⟨?_, ?_, ?_, fun h => absurd (hstarted.symm.trans h) (by decide)⟩, fun _ => ?_⟩
    · rw [hbytes]
      exact hmode.trans hrmode.symm
    · rw [hbytes, herror]
      exact hrerror.symm
    · rw [hbytes]
      exact hshows'
    · obtain ⟨hfront, hvalue⟩ := hstops rfl
      have hwait := settle_rest t s.mode (s.buffer ++ reads.flatten)
        (by rw [hbuffer, hcomes]; rfl)
      rw [hbuffer, hcomes] at hwait
      obtain ⟨v, hv, hsettle⟩ :=
        hfront.settle_buffer (keepsPlace_of_turn hturn hplace) hvalue hwait
      refine ⟨{ mode := l.mode, rest := l.ahead, last := none, error := none }, r.last.or last, v,
        ⟨?_, ?_, hshows', ?_, herror, fun h => absurd (hstarted.symm.trans h) (by decide)⟩⟩
      · rw [hbytes, ← hrmode, ← hrrest, ← hrerror]
        rfl
      · show settle t (if s.started then _ else _) l.buffer = _
        rw [hmode]
        exact hsettle
      · rcases hv with rfl | rfl
        · exact Or.inl rfl
        · rw [← hrlast]
          rcases hagain with rfl | rfl
          · cases r.last with
            | none => exact Or.inl rfl
            | some _ => exact Or.inr rfl
          · cases r.last with
            | none => exact Or.inr rfl
            | some _ => exact Or.inr rfl
  · -- the call meets an error, and has not completed an array
    have hnone : l.lastObject = none := by
      by_contra hsome
      obtain ⟨rfl, -⟩ := turn_fail hturn
      exact hdrops ⟨hsome, l, text, hturn⟩
    have hlast : r.last = none := by
      rw [hnone] at hrlast
      exact (Option.or_eq_none_iff.mp hrlast).1
    refine ⟨⟨?_, ?_, ?_, fun h => absurd (hstarted.symm.trans h) (by decide)⟩, fun h => ?_⟩
    · rw [hbytes]
      exact hmode.trans hrmode.symm
    · rw [hbytes]
      exact hrerror.symm
    · rw [hbytes]
      show s.blocks = shown parseJson blocks (r.last.or last)
      rw [hlast, hshows]
      rfl
    · cases h

theorem Outcome.of_after {m : Mode} {x : List Char} {error : Option String}
    (h : r.after again = { mode := m, rest := x, last := none, error := error }) :
    r = { mode := m, rest := x, last := none, error := error } ∧ again = none := by
  obtain ⟨m', x', last', error'⟩ := r
  have hnone : last'.or again = none := congrArg Outcome.last h
  obtain ⟨rfl, rfl⟩ := Option.or_eq_none_iff.mp hnone
  exact ⟨h, rfl⟩

/-- **A careful call** comes to what all bytes come to, and to a place of the stream. -/
theorem Pending.call (h : Pending t parseJson blocks s bytes r last again)
    (hcareful : Careful t s reads) :
    Settled t parseJson blocks (statusHandleReadable t parseJson s reads)
        (bytes ++ reads.flatten) ∧
      ((statusHandleReadable t parseJson s reads).error = none → ∃ r' last' again',
        Pending t parseJson blocks (statusHandleReadable t parseJson s reads)
          (bytes ++ reads.flatten) r' last' again') := by
  obtain ⟨hbytes, hbuffer⟩ := h.more reads.flatten
  have hcall : statusHandleReadable t parseJson s reads =
      i3barHandleReadable t parseJson s reads := by
    unfold statusHandleReadable
    rw [h.error]
    rfl
  rw [hcall]
  unfold i3barHandleReadable
  cases hstarted : s.started with
  | true =>
      have hbegun : beginArray s reads = .begun s reads := if_pos hstarted
      obtain ⟨e, hlast, hend⟩ := loop_lastTurn t reads s.reader
      obtain ⟨hplace, hdrops⟩ := hcareful h.error s reads e hbegun hlast
      rw [hbegun]
      exact readObjects_settled hstarted h.error h.shows h.again_or hbytes hbuffer hend hplace hdrops
  | false =>
      have hmode : s.mode = .start := by
        unfold StatusLine.mode
        rw [hstarted]
        rfl
      have hlook : beginArray s reads = lookForBracket s reads := by
        unfold beginArray
        rw [hstarted]
        rfl
      have hcomes := lookForBracket_comes t s reads
      rw [hmode] at hbuffer
      cases hbegun : beginArray s reads with
      | begun s' reads' =>
          rw [← hlook, hbegun] at hcomes
          obtain ⟨⟨rest, rfl⟩, hsettle⟩ := hcomes
          obtain ⟨e, hlast, hend⟩ := loop_lastTurn t reads'
            ({ s with started := true, buffer := rest } : StatusLine B).reader
          obtain ⟨hplace, hdrops⟩ := hcareful h.error _ reads' e hbegun hlast
          have hvalue : ({ s with started := true, buffer := rest } : StatusLine B).mode = .value := by
            unfold StatusLine.mode
            rw [h.expects hstarted]
            rfl
          exact readObjects_settled rfl h.error h.shows h.again_or hbytes
            (by rw [hvalue, ← hsettle, hbuffer]) hend hplace hdrops
      | wait s' =>
          rw [← hlook, hbegun] at hcomes
          obtain ⟨⟨blanks, rfl, hblank⟩, hsettle⟩ := hcomes
          obtain ⟨hr, rfl⟩ := Outcome.of_after (hbuffer.symm.trans hsettle)
          rw [hr] at hbytes
          have hmode' : ({ s with buffer := blanks } : StatusLine B).mode = .start := hmode
          refine ⟨⟨?_, ?_, ?_, h.expects⟩, fun _ => ⟨_, last, none, hbytes, ?_, h.shows, Or.inl rfl,
            h.error, h.expects⟩⟩
          · rw [hbytes]
            exact hmode'
          · rw [hbytes]
            exact h.error
          · rw [hbytes]
            exact h.shows
          · rw [hmode', Outcome.after_none]
            exact settle_blank rfl hblank
      | fail s' =>
          rw [← hlook, hbegun] at hcomes
          obtain ⟨⟨buffer, rfl⟩, hsettle⟩ := hcomes
          obtain ⟨hr, rfl⟩ := Outcome.of_after (hbuffer.symm.trans hsettle)
          rw [hr] at hbytes
          refine ⟨⟨?_, ?_, ?_, h.expects⟩, fun h' => ?_⟩
          · rw [hbytes]
            exact hmode
          · rw [hbytes]
            rfl
          · rw [hbytes]
            exact h.shows
          · cases h'

end Call

/-! ## The runs -/

section Runs

variable {blocks : B} {s : StatusLine B} {bytes : List Char}

/-- After an error nothing changes, and more bytes come to the same. -/
theorem Settled.call_error (h : Settled t parseJson blocks s bytes) (herror : s.error ≠ none)
    (reads : List (List Char)) :
    Settled t parseJson blocks (statusHandleReadable t parseJson s reads)
      (bytes ++ reads.flatten) := by
  have hsome : s.error.isSome = true := Option.isSome_iff_ne_none.mpr herror
  have hsettle : settle t .start (bytes ++ reads.flatten) = settle t .start bytes := by
    rw [settle_append]
    unfold Outcome.resume
    rw [← h.error, if_pos hsome]
  unfold statusHandleReadable
  rw [if_pos hsome]
  refine ⟨?_, ?_, ?_, h.expects⟩
  · rw [hsettle]
    exact h.mode
  · rw [hsettle]
    exact h.error
  · rw [hsettle]
    exact h.shows

/-- The calls after the first one. -/
theorem Settled.calls {calls : List (List (List Char))} (h : Settled t parseJson blocks s bytes)
    (hplace : s.error = none → ∃ r last again, Pending t parseJson blocks s bytes r last again)
    (hcareful : Lib.Allowed (statusHandleReadable t parseJson) (Careful t) s calls) :
    Settled t parseJson blocks (runCalls t parseJson s calls) (bytes ++ calls.flatten.flatten) := by
  induction calls generalizing s bytes with
  | nil =>
      rw [List.flatten_nil, List.flatten_nil, List.append_nil]
      exact h
  | cons reads calls ih =>
      rw [List.flatten_cons, List.flatten_append, ← List.append_assoc]
      by_cases herror : s.error = none
      · obtain ⟨r, last, again, hpending⟩ := hplace herror
        obtain ⟨hnext, hnextPlace⟩ := hpending.call hcareful.1
        exact ih hnext hnextPlace hcareful.2
      · have hnext := h.call_error herror reads
        refine ih hnext (fun hnone => absurd hnone ?_) hcareful.2
        unfold statusHandleReadable
        rw [if_pos (Option.isSome_iff_ne_none.mpr herror)]
        exact herror

/-- **A careful run** comes to what its bytes come to. -/
theorem runCalls_settled {n : Nat} {buffer : List Char} {calls : List (List (List Char))}
    (hcalls : calls ≠ []) (hcareful : Lib.Allowed (statusHandleReadable t parseJson) (Careful t)
      (StatusLine.start blocks n buffer) calls) :
    Settled t parseJson blocks (runCalls t parseJson (StatusLine.start blocks n buffer) calls)
      (buffer ++ calls.flatten.flatten) := by
  cases calls with
  | nil => exact absurd rfl hcalls
  | cons reads calls =>
      obtain ⟨hfirst, hplace⟩ := (Pending.start t parseJson blocks n buffer).call hcareful.1
      rw [List.flatten_cons, List.flatten_append, ← List.append_assoc]
      exact hfirst.calls hplace hcareful.2

/-- The flags say what comes next. -/
theorem started_eq (s : StatusLine B) : s.started = decide (s.mode ≠ .start) := by
  unfold StatusLine.mode
  cases s.started with
  | false => rfl
  | true => cases s.expectingComma <;> rfl

theorem expectingComma_eq (h : s.started = false → s.expectingComma = false) :
    s.expectingComma = decide (s.mode = .comma) := by
  unfold StatusLine.mode
  cases hstarted : s.started with
  | false => exact h hstarted
  | true => cases s.expectingComma <;> rfl

end Runs

/-! ## A tokener of empty arrays -/

/-- An empty array, which is the place it ends at. -/
def parseEmptyArray (x : List Char) : Parsed Nat :=
  match scanFor '[' x with
  | .found inner =>
      match scanFor ']' inner with
      | .found rest => .success (x.length - rest.length) (x.length - rest.length)
      | .blank => .more
      | .invalid => .error
  | .blank => .more
  | .invalid => .error

theorem parseEmptyArray_nil : parseEmptyArray [] = .more := rfl

theorem parseEmptyArray_success {x : List Char} {v n : Nat}
    (h : parseEmptyArray x = .success v n) :
    ∃ inner rest, scanFor '[' x = .found inner ∧ scanFor ']' inner = .found rest ∧
      v = x.length - rest.length ∧ n = x.length - rest.length := by
  unfold parseEmptyArray at h
  split at h
  next inner hinner =>
    split at h
    next rest hrest =>
      obtain ⟨rfl, rfl⟩ := Parsed.success.inj h
      exact ⟨inner, rest, hinner, hrest, rfl, rfl⟩
    · cases h
    · cases h
  · cases h
  · cases h

theorem parseEmptyArray_pos {x : List Char} {v n : Nat} (h : parseEmptyArray x = .success v n) :
    0 < n := by
  obtain ⟨inner, rest, hinner, hrest, -, rfl⟩ := parseEmptyArray_success h
  exact Nat.sub_pos_of_lt ((scanFor_length hrest).trans (scanFor_length hinner))

theorem parseEmptyArray_le {x : List Char} {v n : Nat} (h : parseEmptyArray x = .success v n) :
    n ≤ x.length := by
  obtain ⟨inner, rest, -, -, -, rfl⟩ := parseEmptyArray_success h
  exact Nat.sub_le _ _

theorem parseEmptyArray_append {x : List Char} {v n : Nat}
    (h : parseEmptyArray x = .success v n) (y : List Char) :
    ∃ k, parseEmptyArray (x ++ y) = .success v (n + k) ∧
      k ≤ (y.takeWhile isSpace).length ∧ (n < x.length → k = 0) := by
  obtain ⟨inner, rest, hinner, hrest, rfl, rfl⟩ := parseEmptyArray_success h
  have hmore := scanFor_append '[' x y
  have hmore' := scanFor_append ']' inner y
  rw [hinner] at hmore
  rw [hrest] at hmore'
  refine ⟨0, ?_, Nat.zero_le _, fun _ => rfl⟩
  have hoffset : (x ++ y).length - (rest ++ y).length = x.length - rest.length := by
    rw [List.length_append, List.length_append]
    omega
  unfold parseEmptyArray
  rw [hmore]
  dsimp only
  rw [hmore']
  dsimp only
  rw [hoffset, Nat.add_zero]

theorem parseEmptyArray_error {x : List Char} (h : parseEmptyArray x = .error) (y : List Char) :
    parseEmptyArray (x ++ y) = .error := by
  unfold parseEmptyArray at h ⊢
  have hmore := scanFor_append '[' x y
  split at h
  next inner hinner =>
    have hmore' := scanFor_append ']' inner y
    split at h
    · cases h
    · cases h
    next hinvalid =>
      rw [hinner] at hmore
      rw [hinvalid] at hmore'
      rw [hmore]
      dsimp only
      rw [hmore']
  · cases h
  next hinvalid =>
    rw [hinvalid] at hmore
    rw [hmore]

/-- A tokener for empty arrays, each of which is the place it ends at. -/
def emptyArrays : Tokener Nat where
  parse := parseEmptyArray
  isArray _ := true
  parse_nil := parseEmptyArray_nil
  offset_pos := @parseEmptyArray_pos
  offset_le := @parseEmptyArray_le
  success_append := @parseEmptyArray_append
  error_append := @parseEmptyArray_error

/-- A comma and an array that does not end. -/
def openArray (n : Nat) : List Char := ',' :: '[' :: List.replicate n ' '

theorem scanFor_blanks (n : Nat) (y : List Char) :
    scanFor ']' (List.replicate n ' ' ++ y) = scanFor ']' y := by
  induction n with
  | zero => rfl
  | succ n ih =>
      rw [List.replicate_succ, List.cons_append, scanFor, if_neg (by decide), if_pos (by decide)]
      exact ih

/-- The first call takes an array. -/
theorem call_first (n : Nat) :
    statusHandleReadable emptyArrays id (StatusLine.start 0 (n + 2) []) ["[[]".toList] =
      ⟨[], n + 2, true, true, 2, none⟩ := by
  have hloop : loop emptyArrays [] ⟨"[]".toList, n + 2, false, 0, none⟩ =
      (⟨[], n + 2, true, 0, some 2⟩, none) := loop_nil rfl
  show readObjects emptyArrays id ⟨"[]".toList, n + 2, true, false, 0, none⟩ [] = _
  rw [readObjects_eq]
  unfold StatusLine.reader
  rw [hloop]
  rfl

theorem openArray_length (n : Nat) : (openArray n).length = n + 2 := by
  unfold openArray
  rw [List.length_cons, List.length_cons, List.length_replicate]

/-- The comma is consumed, and the array does not end in the buffer. -/
theorem loop_openArray (n : Nat) (reads : List (List Char)) :
    loop emptyArrays (openArray n :: reads) ⟨[], n + 2, true, 0, none⟩ =
      loop emptyArrays reads ⟨openArray n, n + 2, false, 1, none⟩ := by
  have hpos : (openArray n).length - ('[' :: List.replicate n ' ').length = 1 := by
    rw [openArray_length, List.length_cons, List.length_replicate]
    omega
  have hturn : turn emptyArrays ⟨openArray n, n + 2, true, 0, none⟩ =
      .again ⟨openArray n, n + 2, false, 1, none⟩ := by
    show (if (openArray n).length - ('[' :: List.replicate n ' ').length < (openArray n).length then
      Turn.again _ else _) = _
    rw [hpos, if_pos (by rw [openArray_length]; exact Nat.le_add_left 2 n)]
  have hread : turn emptyArrays (⟨[], n + 2, true, 0, none⟩ : Reader Nat) =
      .read ⟨[], n + 2, true, 0, none⟩ := rfl
  rw [loop_cons hread]
  exact loop_again hturn

/-- The full buffer is doubled, and the place stays behind the comma. -/
theorem turn_openArray (n : Nat) : turn emptyArrays ⟨openArray n, n + 2, false, 1, none⟩ =
    .read ⟨openArray n, (n + 2) * 2, false, 1, none⟩ := by
  have hblank : scanFor ']' (List.replicate n ' ') = .blank := by
    have hscan := scanFor_blanks n []
    rw [List.append_nil] at hscan
    exact hscan
  have hparse : emptyArrays.parse ((openArray n).drop 1) = .more := by
    show (match scanFor ']' (List.replicate n ' ') with
      | .found rest => _
      | .blank => Parsed.more
      | .invalid => Parsed.error) = _
    rw [hblank]
  unfold turn
  rw [if_neg Bool.false_ne_true, hparse]
  dsimp only
  rw [if_neg (by rw [openArray_length]; exact Nat.lt_irrefl _)]

/-- Where the call goes on, the array ends. -/
theorem turn_closedArray (n m : Nat) : turn emptyArrays ⟨openArray n ++ [']'], m, false, 1, none⟩ =
    .read ⟨[], m, true, 0, some (n + 2)⟩ := by
  have hlength : (openArray n ++ [']']).length = n + 3 := by
    rw [List.length_append, openArray_length]
    rfl
  have hdrop : (openArray n ++ [']']).drop 1 = '[' :: (List.replicate n ' ' ++ [']']) := rfl
  have hparse : emptyArrays.parse ((openArray n ++ [']']).drop 1) = .success (n + 2) (n + 2) := by
    have hoffset : ((openArray n ++ [']']).drop 1).length - ([] : List Char).length = n + 2 := by
      rw [List.length_drop, hlength]
      rfl
    show (match scanFor ']' (List.replicate n ' ' ++ [']']) with
      | .found rest => Parsed.success (((openArray n ++ [']']).drop 1).length - rest.length)
          (((openArray n ++ [']']).drop 1).length - rest.length)
      | .blank => Parsed.more
      | .invalid => Parsed.error) = _
    rw [scanFor_blanks n [']']]
    show Parsed.success (_ - ([] : List Char).length) (_ - ([] : List Char).length) = _
    rw [hoffset]
  unfold turn
  rw [if_neg Bool.false_ne_true, hparse]
  dsimp only
  rw [hlength, if_neg (by omega)]
  rfl

/-- Cut behind the full buffer, the next call takes the comma for an object. -/
theorem runCalls_cut (n : Nat) : (runCalls emptyArrays id (StatusLine.start 0 (n + 2) [])
    [["[[]".toList], [openArray n], [[']']]]).error = some failedText := by
  have hsecond : statusHandleReadable emptyArrays id ⟨[], n + 2, true, true, 2, none⟩
      [openArray n] = ⟨openArray n, (n + 2) * 2, true, false, 2, none⟩ := by
    show readObjects emptyArrays id ⟨[], n + 2, true, true, 2, none⟩ [openArray n] = _
    rw [readObjects_eq]
    unfold StatusLine.reader
    rw [loop_openArray, loop_nil (turn_openArray n)]
    rfl
  have hfail : loop emptyArrays [[']']] ⟨openArray n, (n + 2) * 2, false, 0, none⟩ =
      (⟨openArray n, (n + 2) * 2, false, 0, none⟩, some failedText) := loop_fail rfl
  unfold runCalls
  rw [List.foldl_cons, call_first, List.foldl_cons, hsecond]
  show (readObjects emptyArrays id ⟨openArray n, (n + 2) * 2, true, false, 2, none⟩ [[']']]).error = _
  rw [readObjects_eq]
  unfold StatusLine.reader
  rw [hfail]
  rfl

/-- In one call the same bytes are no error. -/
theorem runCalls_whole (n : Nat) : (runCalls emptyArrays id (StatusLine.start 0 (n + 2) [])
    [["[[]".toList], [openArray n, [']']]]).error = none := by
  unfold runCalls
  rw [List.foldl_cons, call_first]
  show (readObjects emptyArrays id ⟨[], n + 2, true, true, 2, none⟩ [openArray n, [']']]).error = _
  rw [readObjects_eq]
  unfold StatusLine.reader
  rw [loop_openArray, loop_cons (turn_openArray n), loop_nil (turn_closedArray n _)]
  rfl

/-! ## However the stream is cut -/

/-- **However the stream is cut**: two careful runs over the same bytes end with the same blocks,
the same flags and the same error. -/
theorem runCalls_chunking {blocks : B} {n n' : Nat} {buffer buffer' : List Char}
    {calls calls' : List (List (List Char))} (hcalls : calls ≠ []) (hcalls' : calls' ≠ [])
    (hbytes : buffer ++ calls.flatten.flatten = buffer' ++ calls'.flatten.flatten)
    (hcareful : Lib.Allowed (statusHandleReadable t parseJson) (Careful t)
      (StatusLine.start blocks n buffer) calls)
    (hcareful' : Lib.Allowed (statusHandleReadable t parseJson) (Careful t)
      (StatusLine.start blocks n' buffer') calls') :
    (runCalls t parseJson (StatusLine.start blocks n buffer) calls).blocks =
        (runCalls t parseJson (StatusLine.start blocks n' buffer') calls').blocks ∧
      (runCalls t parseJson (StatusLine.start blocks n buffer) calls).started =
        (runCalls t parseJson (StatusLine.start blocks n' buffer') calls').started ∧
      (runCalls t parseJson (StatusLine.start blocks n buffer) calls).expectingComma =
        (runCalls t parseJson (StatusLine.start blocks n' buffer') calls').expectingComma ∧
      (runCalls t parseJson (StatusLine.start blocks n buffer) calls).error =
        (runCalls t parseJson (StatusLine.start blocks n' buffer') calls').error := by
  have hs := runCalls_settled hcalls hcareful
  have hs' := runCalls_settled hcalls' hcareful'
  rw [← hbytes] at hs'
  have hmode := hs.mode.trans hs'.mode.symm
  refine ⟨hs.shows.trans hs'.shows.symm, ?_, ?_, hs.error.trans hs'.error.symm⟩
  · rw [started_eq, hmode, ← started_eq]
  · rw [expectingComma_eq hs.expects, hmode, ← expectingComma_eq hs'.expects]

/-- An array in two calls and in one. -/
theorem runCalls_chunking_emptyArray :
    (runCalls emptyArrays id (StatusLine.start 0 8192 []) [["[[".toList], ["]".toList]]).blocks =
        (runCalls emptyArrays id (StatusLine.start 0 64 "[".toList) [["[]".toList]]).blocks ∧
      (runCalls emptyArrays id (StatusLine.start 0 8192 []) [["[[".toList], ["]".toList]]).error =
        (runCalls emptyArrays id (StatusLine.start 0 64 "[".toList) [["[]".toList]]).error := by
  have hfirst : Careful emptyArrays (StatusLine.start 0 8192 []) ["[[".toList] :=
    careful_of_lastTurn rfl (.eagain rfl) rfl (by decide)
  have hopen : turn emptyArrays ⟨"[".toList, 8192, false, 0, none⟩ =
      .read ⟨"[".toList, 8192, false, 0, none⟩ := rfl
  have hcall : statusHandleReadable emptyArrays id (StatusLine.start 0 8192 []) ["[[".toList] =
      ⟨"[".toList, 8192, true, false, 0, none⟩ := by
    have hloop := loop_nil hopen
    show readObjects emptyArrays id ⟨"[".toList, 8192, true, false, 0, none⟩ [] = _
    rw [readObjects_eq]
    unfold StatusLine.reader
    rw [hloop]
    rfl
  have hsecond : Careful emptyArrays
      (statusHandleReadable emptyArrays id (StatusLine.start 0 8192 []) ["[[".toList])
      ["]".toList] := by
    rw [hcall]
    exact careful_of_lastTurn rfl (.read hopen (.eagain rfl)) rfl (by decide)
  have hempty : turn emptyArrays ⟨[], 64, false, 0, none⟩ = .read ⟨[], 64, false, 0, none⟩ := rfl
  have hwhole : Careful emptyArrays (StatusLine.start 0 64 "[".toList) ["[]".toList] :=
    careful_of_lastTurn rfl (.read hempty (.eagain rfl)) rfl (by decide)
  have hcut : Lib.Allowed (statusHandleReadable emptyArrays id) (Careful emptyArrays)
      (StatusLine.start 0 8192 []) [["[[".toList], ["]".toList]] := ⟨hfirst, hsecond, trivial⟩
  have hone : Lib.Allowed (statusHandleReadable emptyArrays id) (Careful emptyArrays)
      (StatusLine.start 0 64 "[".toList) [["[]".toList]] := ⟨hwhole, trivial⟩
  obtain ⟨hblocks, -, -, herror⟩ :=
    runCalls_chunking (List.cons_ne_nil _ _) (List.cons_ne_nil _ _) (by rfl) hcut hone
  exact ⟨hblocks, herror⟩
/-- **Where the stream is cut matters**: an array that does not end in the buffer of 8192 bytes
ends it in an error when the call ends there, and does not when the call goes on. -/
theorem runCalls_chunking_fullBuffer :
    ([["[[]".toList], [openArray 8190], [[']']]] : List (List (List Char))).flatten.flatten =
        ([["[[]".toList], [openArray 8190, [']']]] : List (List (List Char))).flatten.flatten ∧
      (runCalls emptyArrays id (StatusLine.start 0 8192 [])
        [["[[]".toList], [openArray 8190], [[']']]]).error = some failedText ∧
      (runCalls emptyArrays id (StatusLine.start 0 8192 [])
        [["[[]".toList], [openArray 8190, [']']]]).error = none :=
  ⟨rfl, runCalls_cut 8190, runCalls_whole 8190⟩

end Swirl.Swaybar
