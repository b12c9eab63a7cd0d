import Swirl.Common.Stringop

set_option autoImplicit false

/-! # The status line of swaybar

`i3bar_handle_readable` of `i3bar.c`: the status command writes an array without end, whose
elements are the lines to show. A call reads what there is until `read` fails with `EAGAIN`, and
takes the elements apart with the tokener of json-c, which is a parameter here. The allocation of
the buffer does not fail.
-/

namespace Swirl.Swaybar

/-! ## The tokener -/

/-- What `json_tokener_parse_ex` reports; `offset` is `char_offset`. -/
inductive Parsed (J : Type) where
  | success (value : J) (offset : Nat)
  | more
  | error

/-- `json_tokener_parse_ex` from a tokener without state: it parses a prefix of the text, wants
more (`json_tokener_continue`) where the text may still become a value, and may take blanks after
the value. The text has no comments. -/
structure Tokener (J : Type) where
  parse : List Char → Parsed J
  /-- `json_object_get_type(test_object) == json_type_array` -/
  isArray : J → Bool
  parse_nil : parse [] = .more
  offset_pos : ∀ {x v n}, parse x = .success v n → 0 < n
  offset_le : ∀ {x v n}, parse x = .success v n → n ≤ x.length
  /-- What follows a value does not change it. -/
  success_append : ∀ {x v n}, parse x = .success v n → ∀ y, ∃ k,
    parse (x ++ y) = .success v (n + k) ∧ k ≤ (y.takeWhile isSpace).length ∧
      (n < x.length → k = 0)
  error_append : ∀ {x}, parse x = .error → ∀ y, parse (x ++ y) = .error

/-! ## Looking for a character -/

/-- What is found in a buffer after blanks. -/
inductive Scan where
  | found (rest : List Char)
  | blank
  | invalid
  deriving DecidableEq, Repr

/-- The loops of `i3bar_handle_readable` that look for one character. -/
def scanFor (c : Char) : List Char → Scan
  | [] => .blank
  | a :: l => if a = c then .found l else if isSpace a then scanFor c l else .invalid

theorem scanFor_length {c : Char} {x rest : List Char} (h : scanFor c x = .found rest) :
    rest.length < x.length := by
  induction x with
  | nil => cases h
  | cons a x ih =>
      rw [scanFor] at h
      split at h
      · obtain rfl := Scan.found.inj h
        exact Nat.lt_succ_self _
      · split at h
        · exact (ih h).trans (Nat.lt_succ_self _)
        · cases h

/-! ## The loop -/

/-- The variables of the loop: `buffer` is the first `buffer_index` bytes of the buffer, and `pos`
is `buffer_pos`. -/
structure Reader (J : Type) where
  buffer : List Char
  bufferSize : Nat
  expectingComma : Bool
  pos : Nat
  lastObject : Option J

/-- What follows one turn of the loop up to `read`: another turn, a read, or an error. -/
inductive Turn (J : Type) where
  | again (l : Reader J)
  | read (l : Reader J)
  | fail (l : Reader J) (text : String)

variable {J B : Type} (t : Tokener J)

/-- `buffer_pos = status->buffer_index = 0` -/
def Reader.clear (l : Reader J) : Reader J := { l with pos := 0, buffer := [] }

def invalidText : String := "[invalid i3bar json]"
def failedText : String := "[failed to parse i3bar json]"

/-- One turn of the loop of `i3bar_handle_readable`. -/
def turn (l : Reader J) : Turn J :=
  if l.expectingComma then
    match scanFor ',' (l.buffer.drop l.pos) with
    | .found rest =>
        let l := { l with expectingComma := false, pos := l.buffer.length - rest.length }
        if l.pos < l.buffer.length then .again l else .read l.clear
    | .blank => .read l.clear
    | .invalid => .fail l invalidText
  else
    match t.parse (l.buffer.drop l.pos) with
    | .success value offset =>
        let l := { l with
          lastObject := if t.isArray value then some value else l.lastObject
          pos := l.pos + offset
          expectingComma := true }
        if l.pos < l.buffer.length then .again l else .read l.clear
    | .more =>
        if l.buffer.length < l.bufferSize then
          -- the object moves to the start of the buffer
          .read { l with buffer := l.buffer.drop l.pos, pos := 0 }
        else .read { l with bufferSize := l.bufferSize * 2 }
    | .error => .fail l failedText

/-- Another turn follows only when something was consumed. -/
theorem turn_again_lt {l l' : Reader J} (h : turn t l = .again l') :
    l'.buffer.length - l'.pos < l.buffer.length - l.pos := by
  unfold turn at h
  split at h
  · split at h
    next rest hscan =>
      have hlt := scanFor_length hscan
      rw [List.length_drop] at hlt
      dsimp only at h
      split at h
      · obtain rfl := Turn.again.inj h
        dsimp only
        omega
      · cases h
    · cases h
    · cases h
  · split at h
    next v n hparse =>
      have hpos := t.offset_pos hparse
      have hle := t.offset_le hparse
      rw [List.length_drop] at hle
      dsimp only at h
      split at h
      · obtain rfl := Turn.again.inj h
        dsimp only
        omega
      · cases h
    · split at h <;> cases h
    · cases h

/-- The loop of `i3bar_handle_readable`, on what the reads return before `EAGAIN`; the second
result is the text of an error. -/
def loop (reads : List (List Char)) (l : Reader J) : Reader J × Option String :=
  match _h : turn t l with
  | .again l' => loop reads l'
  | .read l' =>
      match reads with
      | [] => (l', none)
      | r :: reads => loop reads { l' with buffer := l'.buffer ++ r }
  | .fail l' text => (l', some text)
termination_by (reads.length, l.buffer.length - l.pos)
decreasing_by
  · exact Prod.Lex.right _ (turn_again_lt t _h)
  · exact Prod.Lex.left _ _ (Nat.lt_succ_self _)

section Loop

variable {t : Tokener J} {l l' : Reader J} {reads : List (List Char)} {r : List Char} {text : String}

theorem loop_again (h : turn t l = .again l') : loop t reads l = loop t reads l' := by
  rw [loop]
  split
  next h' =>
    rw [h] at h'
    obtain rfl := Turn.again.inj h'
    rfl
  next h' => rw [h] at h'; cases h'
  next h' => rw [h] at h'; cases h'

theorem loop_nil (h : turn t l = .read l') : loop t [] l = (l', none) := by
  rw [loop]
  split
  next h' => rw [h] at h'; cases h'
  next h' =>
    rw [h] at h'
    obtain rfl := Turn.read.inj h'
    rfl
  next h' => rw [h] at h'; cases h'

theorem loop_cons (h : turn t l = .read l') :
    loop t (r :: reads) l = loop t reads { l' with buffer := l'.buffer ++ r } := by
  rw [loop]
  split
  next h' => rw [h] at h'; cases h'
  next h' =>
    rw [h] at h'
    obtain rfl := Turn.read.inj h'
    rfl
  next h' => rw [h] at h'; cases h'

theorem loop_fail (h : turn t l = .fail l' text) : loop t reads l = (l', some text) := by
  rw [loop]
  split
  next h' => rw [h] at h'; cases h'
  next h' => rw [h] at h'; cases h'
  next h' =>
    rw [h] at h'
    obtain ⟨rfl, rfl⟩ := Turn.fail.inj h'
    rfl

end Loop

/-! ## The calls -/

/-- `struct status_line`, once the protocol is that of i3bar; `error` is the text of the error
protocol. -/
structure StatusLine (B : Type) where
  buffer : List Char
  bufferSize : Nat
  started : Bool
  expectingComma : Bool
  blocks : B
  error : Option String

/-- The status line after the header, with the bytes that were read with it. -/
def StatusLine.start (blocks : B) (bufferSize : Nat) (buffer : List Char) : StatusLine B :=
  { buffer, bufferSize, started := false, expectingComma := false, blocks, error := none }

/-- What the look for the opening bracket ends in: the array has begun, and some reads are left;
`EAGAIN`; or an error. -/
inductive Begun (B : Type) where
  | begun (s : StatusLine B) (reads : List (List Char))
  | wait (s : StatusLine B)
  | fail (s : StatusLine B)

/-- The look through the buffer; `next` is what follows when it is blank. -/
def lookInBuffer (s : StatusLine B) (reads : List (List Char)) (next : Begun B) : Begun B :=
  match scanFor '[' s.buffer with
  | .found rest => .begun { s with started := true, buffer := rest } reads
  | .invalid => .fail { s with error := some invalidText }
  | .blank => next

/-- The first loop of `i3bar_handle_readable`, on what the reads return. -/
def lookForBracket (s : StatusLine B) : List (List Char) → Begun B
  | [] => lookInBuffer s [] (.wait s)
  | r :: reads => lookInBuffer s (r :: reads) (lookForBracket { s with buffer := r } reads)

/-- The variables at the start of the second loop. -/
def StatusLine.reader (s : StatusLine B) : Reader J :=
  { buffer := s.buffer, bufferSize := s.bufferSize, expectingComma := s.expectingComma, pos := 0,
    lastObject := none }

/-- The second loop of `i3bar_handle_readable` and what comes after it. `parseJson` stands for
`i3bar_parse_json`, which replaces all blocks by those of an array. -/
def readObjects (parseJson : J → B) (s : StatusLine B) (reads : List (List Char)) : StatusLine B :=
  let r := loop t reads s.reader
  let s := { s with
    buffer := r.1.buffer, bufferSize := r.1.bufferSize, expectingComma := r.1.expectingComma }
  match r.2 with
  | some text => { s with error := some text }
  | none =>
      match r.1.lastObject with
      | some v => { s with blocks := parseJson v }
      | none => s

/-- The array begins, if it has not before. -/
def beginArray (s : StatusLine B) (reads : List (List Char)) : Begun B :=
  if s.started then .begun s reads else lookForBracket s reads

/-- `i3bar_handle_readable`, on what the reads return before `EAGAIN`. -/
def i3barHandleReadable (parseJson : J → B) (s : StatusLine B) (reads : List (List Char)) :
    StatusLine B :=
  match beginArray s reads with
  | .begun s reads => readObjects t parseJson s reads
  | .wait s => s
  | .fail s => s

/-- `status_handle_readable`: after an error there is nothing to read from. -/
def statusHandleReadable (parseJson : J → B) (s : StatusLine B) (reads : List (List Char)) :
    StatusLine B :=
  if s.error.isSome then s else i3barHandleReadable t parseJson s reads

/-- Some calls, one for each time there is something to read. -/
def runCalls (parseJson : J → B) (s : StatusLine B) (calls : List (List (List Char))) :
    StatusLine B :=
  calls.foldl (statusHandleReadable t parseJson) s

end Swirl.Swaybar
