import Swirl.Lib.Buffer
import Swirl.Lib.Reading
import Swirl.Swaybar.StatusRuns

set_option autoImplicit false

/-! # Reading the status command

`status_handle_readable` of `status_line.c` with all its protocols, over the results of `ioctl`,
`read` and `getline`. A call leaves its loops on some of the results only, so that it need not
return; and what it reads and writes of the buffer is checked against the size of the buffer. The
allocations of the buffer do not fail.
-/

namespace Swirl.Swaybar

open Lib

/-! ## The system -/

/-- What `read` returns: some bytes, or none at the end of the file; `EAGAIN`; another error. -/
inductive ReadResult where
  | bytes (d : List Char)
  | again
  | failed
  deriving DecidableEq, Repr

/-- `errno` after a call of `getline`. -/
inductive Errno where
  | none
  | again
  | other
  deriving DecidableEq, Repr

/-- What `getline` returns: the characters it read, or `-1`; `errno`; and the size of the buffer,
which has room for the line and a null character. -/
structure LineResult where
  ret : Option (List Char)
  errno : Errno
  bufferSize : ℕ
  line : ∀ l, ret = some l → l ≠ [] ∧ l.length < bufferSize

/-- The end of the file: there was nothing to read, and no error. -/
def LineResult.IsEof (r : LineResult) : Prop := r.ret = none ∧ r.errno = .none

/-- What a call is given: what `ioctl` says is available, the first `read`, whether `write` wrote
all, and what `read` and `getline` return in the loops. -/
structure StatusInput where
  available : Option ℕ
  first : ReadResult
  written : Bool
  reads : ℕ → ReadResult
  lines : ℕ → LineResult

/-- After the end of the file there is nothing else. -/
def StatusInput.EofLasts (inp : StatusInput) : Prop :=
  (∀ k, inp.reads k = .bytes [] → inp.reads (k + 1) = .bytes []) ∧
    ∀ k, (inp.lines k).IsEof → (inp.lines (k + 1)).IsEof

/-! ## The status line -/

/-- `struct status_line` under each protocol. -/
inductive Status (B : Type) where
  | undef (bufferSize : ℕ)
  | error (text : String)
  | text (buffer : List Char) (bufferSize : ℕ)
  | i3bar (s : StatusLine B)

/-- How a call ends: it returns, with whether the bar has to be drawn; it has accessed something
outside of the buffer; or it was given more bytes than it asked for, which `read` does not do. -/
inductive Ending (B : Type) where
  | returned (dirty : Bool) (s : Status B)
  | outside
  | notRead

/-- The places of a buffer from one on and before another that are accessed. -/
structure Span where
  start : Int
  stop : Int
  deriving DecidableEq, Repr

/-- The places are in a buffer. -/
def Span.fits (a : Span) (size : ℕ) : Bool :=
  decide (a.stop ≤ a.start) || (decide (0 ≤ a.start) && decide (a.stop ≤ size))

variable {J B σ ι : Type} (t : Tokener J) (parseJson : J → B)

/-- A turn that accesses some places of a buffer. -/
def checked (spans : List Span) (size : ℕ) (next : Next σ ι (Ending B)) : Next σ ι (Ending B) :=
  if spans.all fun a => a.fits size then next else .stop .outside

def readText : String := "[error reading from status command]"
def writeText : String := "[failed to write to status command]"

/-! ## The text protocol -/

/-- The variables of the loop for the text protocol: what `getline` has left in the buffer, its
size, and `read_bytes`. -/
structure TextReader where
  buffer : List Char
  bufferSize : ℕ
  readBytes : Int

/-- A newline at a place becomes a null character. -/
def chop (buffer : List Char) (i : ℕ) : List Char :=
  if buffer[i]? = some '\n' then buffer.set i '\x00' else buffer

/-- What `getline` leaves in the buffer. -/
def LineResult.fill (r : LineResult) (buffer : List Char) : List Char :=
  match r.ret with
  | some l => l ++ ['\x00']
  | none => buffer

/-- `getline`, and what the loop makes of it. -/
def takeLine (x : TextReader) (r : LineResult) : TextReader ⊕ Ending B :=
  let buffer := r.fill x.buffer
  let size := max x.bufferSize r.bufferSize
  match r.errno with
  | .again => .inr (.returned true (.text buffer size))
  | .other => .inr (.returned true (.error readText))
  | .none =>
      .inl { buffer, bufferSize := size,
             readBytes := match r.ret with | some l => l.length | none => -1 }

/-- One turn of the loop for the text protocol. -/
def textTurn (x : TextReader) : Next TextReader LineResult (Ending B) :=
  checked [⟨x.readBytes - 1, x.readBytes⟩] x.bufferSize
    (.read (takeLine { x with buffer := chop x.buffer (x.readBytes - 1).toNat }))

/-! ## The protocol of i3bar -/

/-- Where `i3bar_handle_readable` is: in its first loop or in its second one. -/
inductive I3barState (J B : Type) where
  | bracket (s : StatusLine B)
  | objects (s : StatusLine B) (l : Reader J)

/-- The blanks at the end of a text. -/
def trailingBlanks (x : List Char) : ℕ := (x.reverse.takeWhile isSpace).length

/-- The places of the buffer a turn of the second loop accesses, apart from those that `read` writes
to: behind a value it walks back over blanks, to the last character. -/
def turnSpans (l : Reader J) : List Span :=
  let scanned : Span := ⟨l.pos, l.buffer.length⟩
  if l.expectingComma then [scanned]
  else
    match t.parse (l.buffer.drop l.pos) with
    | .success _ offset =>
        let blanks := trailingBlanks (l.buffer.take (l.pos + offset))
        [scanned, ⟨(l.pos + offset : ℕ) - 1 - blanks, (l.pos + offset : ℕ)⟩]
    | .more =>
        if l.buffer.length < l.bufferSize then [scanned, ⟨0, l.buffer.length - l.pos⟩]
        else [scanned]
    | .error => [scanned, ⟨l.buffer.length - 1, l.buffer.length⟩]

/-- `read` in the first loop, into the whole buffer. -/
def readBracket (s : StatusLine B) : ReadResult → I3barState J B ⊕ Ending B
  | .bytes d =>
      if d.length ≤ s.bufferSize then .inl (.bracket { s with buffer := d }) else .inr .notRead
  | .again => .inr (.returned false (.i3bar s))
  | .failed => .inr (.returned true (.error readText))

/-- `read` in the second loop, behind the bytes that are in the buffer, and the end of a call. -/
def readMore (s : StatusLine B) (l : Reader J) : ReadResult → I3barState J B ⊕ Ending B
  | .bytes d =>
      if l.buffer.length + d.length ≤ l.bufferSize then
        .inl (.objects s { l with buffer := l.buffer ++ d })
      else .inr .notRead
  | .again =>
      .inr (.returned l.lastObject.isSome (.i3bar { s with
        buffer := l.buffer, bufferSize := l.bufferSize, expectingComma := l.expectingComma
        blocks := shown parseJson s.blocks l.lastObject }))
  | .failed => .inr (.returned true (.error readText))

/-- One turn of the first loop, which looks for the opening bracket; the second one follows. -/
def bracketTurn (s : StatusLine B) : Next (I3barState J B) ReadResult (Ending B) :=
  if s.started then .again (.objects s s.reader)
  else
    checked [⟨0, s.buffer.length⟩] s.bufferSize
      (match scanFor '[' s.buffer with
      | .found rest =>
          let s := { s with started := true, buffer := rest }
          .again (.objects s s.reader)
      | .invalid => .stop (.returned true (.error invalidText))
      | .blank => .read (readBracket s))

/-- One turn of the second loop, with what it reads. -/
def objectsTurn (s : StatusLine B) (l : Reader J) :
    Next (I3barState J B) ReadResult (Ending B) :=
  checked (turnSpans t l) l.bufferSize
    (match turn t l with
    | .again l' => .again (.objects s l')
    | .fail _ text => .stop (.returned true (.error text))
    | .read l' => .read (readMore parseJson s l'))

/-- One turn of `i3bar_handle_readable`. -/
def i3barTurn : I3barState J B → Next (I3barState J B) ReadResult (Ending B)
  | .bracket s => bracketTurn s
  | .objects s l => objectsTurn t parseJson s l

/-! ## The first call -/

/-- The header of the i3bar protocol in what was read first, which must have a newline: whether it
asks for click events, and what comes after it. `header` stands for `json_tokener_parse` and the
test of the version. -/
def i3barHeader (header : List Char → Option Bool) (d : List Char) : Option (Bool × List Char) :=
  let text := content '\x00' d
  match text.dropWhile (· ≠ '\n'), header text with
  | _ :: rest, some clicks => some (clicks, rest)
  | _, _ => none

/-- What `PROTOCOL_UNDEF` comes to: the end of the call, or one of the protocols. -/
inductive Opening (B : Type) where
  | ends (e : Ending B)
  | text (x : TextReader)
  | i3bar (s : StatusLine B)

variable (header : List Char → Option Bool) (blocks : B)

/-- `PROTOCOL_UNDEF`, from the first bytes on: `n` bytes were available, and all were read into a
buffer that has room for a null character too. -/
def openProtocol (inp : StatusInput) (bufferSize n : ℕ) (d : List Char) : Opening B :=
  match i3barHeader header d with
  | some (clicks, rest) =>
      if clicks && !inp.written then .ends (.returned true (.error writeText))
      else .i3bar (StatusLine.start blocks bufferSize rest)
  | none => .text { buffer := d ++ ['\x00'], bufferSize, readBytes := n }

/-- `PROTOCOL_UNDEF` -/
def openStatus (inp : StatusInput) (bufferSize : ℕ) : Opening B :=
  match inp.available with
  | none => .ends (.returned true (.error readText))
  | some n =>
      let bufferSize := if bufferSize < n + 1 then n + 1 else bufferSize
      match inp.first with
      | .again | .failed => .ends (.returned true (.error readText))
      | .bytes d =>
          if n < d.length then .ends .notRead
          else if d.length ≠ n then .ends (.returned true (.error readText))
          else if Span.fits ⟨0, n + 1⟩ bufferSize then
            -- the bytes with a null character, where `strchr`, `strlen` and `memmove` stay
            openProtocol header blocks inp bufferSize n d
          else .ends .outside

/-! ## The calls -/

/-- The `switch` of `status_handle_readable`; a first call goes on with the protocol it finds. -/
def Status.enter (inp : StatusInput) : Status B → Opening B
  | .undef bufferSize => openStatus header blocks inp bufferSize
  | .error message => .ends (.returned false (.error message))
  | .text buffer bufferSize => .text { buffer, bufferSize, readBytes := 1 }
  | .i3bar s => .i3bar s

/-- `status_handle_readable`, for a number of turns of its loops; `none` says that it has not
returned yet. -/
def statusHandle (fuel : ℕ) (s : Status B) (inp : StatusInput) : Option (Ending B) :=
  match s.enter header blocks inp with
  | .ends e => some e
  | .text x => loopFor textTurn inp.lines fuel 0 x
  | .i3bar s => loopFor (i3barTurn t parseJson) inp.reads fuel 0 (.bracket s)

/-- A call ends. -/
def CallEnds (s : Status B) (inp : StatusInput) (e : Ending B) : Prop :=
  ∃ fuel, statusHandle t parseJson header blocks fuel s inp = some e

/-- A call returns, and has accessed nothing outside of the buffer. -/
def Returns (s : Status B) (inp : StatusInput) : Prop :=
  ∃ dirty s', CallEnds t parseJson header blocks s inp (.returned dirty s')

/-- The states of the status line: that of `status_line_init`, those that calls return in, and that
after `status_in` has found the other end closed. -/
inductive Reached : Status B → Prop
  | init : Reached (.undef 8192)
  | hangup {s : Status B} : Reached s → Reached (.error readText)
  | call {s s' : Status B} (inp : StatusInput) (dirty : Bool) :
      Reached s → CallEnds t parseJson header blocks s inp (.returned dirty s') → Reached s'

/-! ## The bytes before `EAGAIN` -/

/-- What `read` returns for some chunks, and then `EAGAIN`. -/
def chunked (chunks : List (List Char)) (k : ℕ) : ReadResult :=
  match chunks[k]? with
  | some d => .bytes d
  | none => .again

/-- The status line after `i3bar_handle_readable`, which has an error text instead of a protocol. -/
def Status.ofLine (s : StatusLine B) : Status B :=
  match s.error with
  | some e => .error e
  | none => .i3bar s

/-- What comes after the second loop. -/
def endObjects (s : StatusLine B) (r : Reader J × Option String) : StatusLine B :=
  let s := { s with
    buffer := r.1.buffer, bufferSize := r.1.bufferSize, expectingComma := r.1.expectingComma }
  match r.2 with
  | some text => { s with error := some text }
  | none =>
      match r.1.lastObject with
      | some v => { s with blocks := parseJson v }
      | none => s

/-- What `i3bar_handle_readable` comes to from a turn on, as far as it is known for chunks and
`EAGAIN`. -/
def I3barState.rest (reads : List (List Char)) : I3barState J B → StatusLine B
  | .bracket s => i3barHandleReadable t parseJson s reads
  | .objects s l => endObjects parseJson s (loop t reads l)

section Chunks

variable {t parseJson} {s : StatusLine B} {l : Reader J} {reads : List (List Char)}

theorem ofLine_endObjects (herror : s.error = none) (l : Reader J) :
    Status.ofLine (endObjects parseJson s (l, none)) = .i3bar { s with
      buffer := l.buffer, bufferSize := l.bufferSize, expectingComma := l.expectingComma
      blocks := shown parseJson s.blocks l.lastObject } := by
  unfold endObjects Status.ofLine shown
  cases l.lastObject with
  | none => simp [herror]
  | some v => simp [herror]

/-- The first turn of the first loop, on chunks. -/
theorem handle_bracket (hstarted : s.started = false) :
    i3barHandleReadable t parseJson s reads =
      match scanFor '[' s.buffer with
      | .found rest => readObjects t parseJson { s with started := true, buffer := rest } reads
      | .invalid => { s with error := some invalidText }
      | .blank =>
          match reads with
          | [] => s
          | r :: reads => i3barHandleReadable t parseJson { s with buffer := r } reads := by
  unfold i3barHandleReadable beginArray
  rw [if_neg (by rw [hstarted]; decide)]
  cases reads with
  | nil =>
      unfold lookForBracket lookInBuffer
      cases scanFor '[' s.buffer <;> rfl
  | cons r reads =>
      rw [lookForBracket, lookInBuffer]
      cases scanFor '[' s.buffer with
      | found rest => rfl
      | invalid => rfl
      | blank =>
          dsimp only
          rw [if_neg (by rw [hstarted]; decide)]

theorem chunked_cons {chunks : List (List Char)} {k : ℕ} {d : List Char}
    {reads : List (List Char)} (h : chunks.drop k = d :: reads) :
    chunked chunks k = .bytes d ∧ chunks.drop (k + 1) = reads := by
  constructor
  · have hget : chunks[k]? = some d := by
      have hdrop : (chunks.drop k)[0]? = chunks[k + 0]? := List.getElem?_drop
      rw [h] at hdrop
      exact hdrop.symm
    rw [chunked, hget]
  · rw [← List.drop_drop, h, List.drop_one, List.tail_cons]

theorem chunked_nil {chunks : List (List Char)} {k : ℕ} (h : chunks.drop k = []) :
    chunked chunks k = .again := by
  have hlen := List.drop_eq_nil_iff.1 h
  rw [chunked, List.getElem?_eq_none hlen]

/-- What is left of a call on chunks comes to a status line. -/
def Agrees (t : Tokener J) (parseJson : J → B) (chunks : List (List Char)) (e : StatusLine B)
    (k : ℕ) (st : I3barState J B) : Prop :=
  st.rest t parseJson (chunks.drop k) = e ∧
    match st with
    | .bracket s | .objects s _ => s.error = none

/-- A turn agrees that may stop because of what it accesses. -/
theorem turnTo_checked {turn : σ → Next σ ι (Ending B)} {input : ℕ → ι} {k : ℕ} {x : σ}
    {spans : List Span} {size : ℕ} {next : Next σ ι (Ending B)} {P : ℕ → σ → Prop}
    {Q : Ending B → Prop} (hturn : turn x = checked spans size next) (hQ : Q .outside)
    (h : TurnTo (fun _ => next) input k x P Q) : TurnTo turn input k x P Q := by
  unfold TurnTo at *
  rw [hturn]
  unfold checked
  split_ifs
  · exact h
  · exact hQ

variable {chunks : List (List Char)} {e : StatusLine B} {k : ℕ}

/-- What an end of a call has to do with a status line. -/
def Ending.Matches (e : StatusLine B) (r : Ending B) : Prop :=
  ∀ dirty s', r = .returned dirty s' → s' = .ofLine e

theorem matches_returned {dirty : Bool} (h : e.error = none) :
    (Ending.returned dirty (.i3bar e)).Matches e := by
  intro dirty' s' heq
  obtain ⟨-, rfl⟩ := Ending.returned.inj heq
  rw [Status.ofLine, h]

theorem matches_error {dirty : Bool} {text : String} (h : e.error = some text) :
    (Ending.returned dirty (.error text)).Matches e := by
  intro dirty' s' heq
  obtain ⟨-, rfl⟩ := Ending.returned.inj heq
  rw [Status.ofLine, h]

/-- A turn of the first loop. -/
theorem Agrees.bracket (h : Agrees t parseJson chunks e k (.bracket s)) :
    TurnTo (i3barTurn t parseJson) (chunked chunks) k (.bracket s) (Agrees t parseJson chunks e)
      (Ending.Matches e) := by
  obtain ⟨hrest, herror⟩ := h
  have herror' : s.error = none := herror
  change i3barHandleReadable t parseJson s (chunks.drop k) = e at hrest
  cases hstarted : s.started with
  | true =>
      have hturn : i3barTurn t parseJson (.bracket s) = .again (.objects s s.reader) :=
        if_pos hstarted
      unfold TurnTo
      rw [hturn]
      refine ⟨?_, herror'⟩
      rw [← hrest, i3barHandleReadable, beginArray, if_pos hstarted]
      rfl
  | false =>
      rw [handle_bracket hstarted] at hrest
      have hturn : i3barTurn t parseJson (.bracket s) =
          checked [⟨0, s.buffer.length⟩] s.bufferSize _ :=
        if_neg (by rw [hstarted]; decide)
      refine turnTo_checked hturn (fun _ _ hfalse => by cases hfalse) ?_
      unfold TurnTo
      cases hscan : scanFor '[' s.buffer with
      | found rest =>
          rw [hscan] at hrest
          exact ⟨hrest, herror'⟩
      | invalid =>
          rw [hscan] at hrest
          exact matches_error (by rw [← hrest])
      | blank =>
          rw [hscan] at hrest
          dsimp only at hrest ⊢
          cases hdrop : chunks.drop k with
          | nil =>
              rw [hdrop] at hrest
              rw [chunked_nil hdrop, ← hrest]
              exact matches_returned herror'
          | cons d reads =>
              obtain ⟨hchunk, hnext⟩ := chunked_cons hdrop
              rw [hdrop] at hrest
              rw [hchunk, readBracket]
              split_ifs
              · refine ⟨?_, herror'⟩
                rw [hnext]
                exact hrest
              · exact fun _ _ hfalse => by cases hfalse

/-- A turn of the second loop. -/
theorem Agrees.objects (h : Agrees t parseJson chunks e k (.objects s l)) :
    TurnTo (i3barTurn t parseJson) (chunked chunks) k (.objects s l) (Agrees t parseJson chunks e)
      (Ending.Matches e) := by
  obtain ⟨hrest, herror⟩ := h
  have herror' : s.error = none := herror
  change endObjects parseJson s (loop t (chunks.drop k) l) = e at hrest
  have hturn : i3barTurn t parseJson (.objects s l) =
      checked (turnSpans t l) l.bufferSize _ := rfl
  refine turnTo_checked hturn (fun _ _ hfalse => by cases hfalse) ?_
  unfold TurnTo
  cases hstep : turn t l with
  | again l' =>
      rw [loop_again hstep] at hrest
      exact ⟨hrest, herror'⟩
  | fail l' text =>
      rw [loop_fail hstep] at hrest
      exact matches_error (by rw [← hrest]; rfl)
  | read l' =>
      dsimp only
      cases hdrop : chunks.drop k with
      | nil =>
          rw [hdrop, loop_nil hstep] at hrest
          rw [chunked_nil hdrop, ← hrest]
          intro dirty s' heq
          obtain ⟨-, rfl⟩ := Ending.returned.inj heq
          rw [ofLine_endObjects herror']
      | cons d reads =>
          obtain ⟨hchunk, hnext⟩ := chunked_cons hdrop
          rw [hdrop, loop_cons hstep] at hrest
          rw [hchunk, readMore]
          split_ifs
          · refine ⟨?_, herror'⟩
            rw [hnext]
            exact hrest
          · exact fun _ _ hfalse => by cases hfalse

/-- **A turn agrees** with the calls on chunks. -/
theorem Agrees.turnTo {st : I3barState J B} (h : Agrees t parseJson chunks e k st) :
    TurnTo (i3barTurn t parseJson) (chunked chunks) k st (Agrees t parseJson chunks e)
      (Ending.Matches e) := by
  cases st with
  | bracket s => exact h.bracket
  | objects s l => exact h.objects

/-- **On chunks and `EAGAIN` a call that returns comes to what `i3barHandleReadable` says.** -/
theorem i3barTurn_handleReadable (herror : s.error = none) {dirty : Bool} {s' : Status B}
    (h : EndsIn (i3barTurn t parseJson) (chunked chunks) 0 (.bracket s) (.returned dirty s')) :
    s' = .ofLine (i3barHandleReadable t parseJson s chunks) := by
  obtain ⟨e, he⟩ : ∃ e, i3barHandleReadable t parseJson s chunks = e := ⟨_, rfl⟩
  have hstart : Agrees t parseJson chunks e 0 (.bracket s) := ⟨he, herror⟩
  rw [he]
  exact h.invariant (I := Agrees t parseJson chunks e)
    (Q := Ending.Matches e) (fun _ _ hagrees => hagrees.turnTo) hstart dirty s' rfl

end Chunks

end Swirl.Swaybar
