import Mathlib.Tactic

set_option autoImplicit false

/-! # Frames on a byte stream

A frame is a kind and a payload. On a stream it is a magic string, the length of the payload and
the kind as four little-endian bytes each, and the payload. `decode` reads a stream from the
front, frame after frame, until the bytes run out or a header starts with something else. What it
has read stays as it is when more bytes arrive.
-/

namespace Swirl.Lib

/-! ## Numbers as bytes -/

/-- The `k` lowest bytes of a number, lowest first. -/
def leBytes : Nat → Nat → List UInt8
  | 0, _ => []
  | k + 1, n => UInt8.ofNat n :: leBytes k (n / 256)

/-- The number whose bytes these are, lowest first. -/
def leValue : List UInt8 → Nat
  | [] => 0
  | b :: bs => b.toNat + 256 * leValue bs

@[simp] theorem leBytes_length (k n : Nat) : (leBytes k n).length = k := by
  induction k generalizing n with
  | zero => rfl
  | succ k ih => rw [leBytes, List.length_cons, ih]

theorem leValue_leBytes {k n : Nat} (h : n < 256 ^ k) : leValue (leBytes k n) = n := by
  induction k generalizing n with
  | zero =>
      rw [pow_zero] at h
      rw [leBytes, leValue]
      omega
  | succ k ih =>
      have hn : n / 256 < 256 ^ k := by
        apply Nat.div_lt_of_lt_mul
        rwa [pow_succ, mul_comm] at h
      rw [leBytes, leValue, ih hn, UInt8.toNat_ofNat']
      omega

theorem leValue_lt (l : List UInt8) : leValue l < 256 ^ l.length := by
  induction l with
  | nil => exact Nat.one_pos
  | cons b l ih =>
      have hb : b.toNat < 256 := b.toNat_lt
      rw [leValue, List.length_cons, pow_succ]
      omega

/-! ## Frames -/

/-- A kind and a payload whose length fits four bytes. -/
@[ext] structure Frame where
  kind : UInt32
  payload : List UInt8
  fits : payload.length < 2 ^ 32

/-- A frame as it stands on the stream. -/
def Frame.bytes (magic : List UInt8) (f : Frame) : List UInt8 :=
  magic ++ leBytes 4 f.payload.length ++ leBytes 4 f.kind.toNat ++ f.payload

theorem Frame.bytes_length (magic : List UInt8) (f : Frame) :
    (f.bytes magic).length = magic.length + 8 + f.payload.length := by
  simp only [bytes, List.length_append, leBytes_length]

/-- The payload length that a header announces. -/
def headLength (magic s : List UInt8) : Nat := leValue ((s.drop magic.length).take 4)

/-- The kind that a header announces. -/
def headKind (magic s : List UInt8) : UInt32 :=
  UInt32.ofNat (leValue ((s.drop (magic.length + 4)).take 4))

theorem headLength_lt (magic s : List UInt8) : headLength magic s < 2 ^ 32 := by
  have hlt := leValue_lt ((s.drop magic.length).take 4)
  have hlen : ((s.drop magic.length).take 4).length ≤ 4 := by
    rw [List.length_take]
    exact Nat.min_le_left _ _
  have hpow : 256 ^ ((s.drop magic.length).take 4).length ≤ 256 ^ 4 :=
    Nat.pow_le_pow_right (by decide) hlen
  calc headLength magic s < 256 ^ ((s.drop magic.length).take 4).length := hlt
    _ ≤ 256 ^ 4 := hpow
    _ = 2 ^ 32 := by norm_num

/-- The front of a stream: not enough bytes for what comes first, a header that starts with
something else, or a frame and the rest. -/
inductive Front
  | short
  | foreign
  | frame (f : Frame) (rest : List UInt8)

/-- The first `n` bytes as the payload of a frame. -/
def takeFrame (kind : UInt32) (n : Nat) (h : n < 2 ^ 32) (s : List UInt8) : Frame :=
  ⟨kind, s.take n, lt_of_le_of_lt (by rw [List.length_take]; exact Nat.min_le_left _ _) h⟩

/-- The front of a stream. -/
def front (magic s : List UInt8) : Front :=
  if s.length < magic.length + 8 then .short
  else if s.take magic.length ≠ magic then .foreign
  else if (s.drop (magic.length + 8)).length < headLength magic s then .short
  else
    .frame (takeFrame (headKind magic s) (headLength magic s) (headLength_lt magic s)
      (s.drop (magic.length + 8))) ((s.drop (magic.length + 8)).drop (headLength magic s))

theorem front_rest_length {magic s rest : List UInt8} {f : Frame}
    (h : front magic s = .frame f rest) : rest.length + 8 ≤ s.length := by
  unfold front at h
  split at h
  · cases h
  · split at h
    · cases h
    · split at h
      · cases h
      · cases h
        simp only [List.length_drop] at *
        omega

/-- The complete frames of a stream, and whether a header that starts with something else comes
after them. -/
def decode (magic s : List UInt8) : List Frame × Bool :=
  match h : front magic s with
  | .short => ([], false)
  | .foreign => ([], true)
  | .frame f rest =>
      have : rest.length < s.length := by
        have := front_rest_length h
        omega
      (f :: (decode magic rest).1, (decode magic rest).2)
termination_by s.length

variable {magic : List UInt8}

theorem decode_of_short {s : List UInt8} (h : front magic s = .short) :
    decode magic s = ([], false) := by
  rw [decode]
  split <;> simp_all

theorem decode_of_foreign {s : List UInt8} (h : front magic s = .foreign) :
    decode magic s = ([], true) := by
  rw [decode]
  split <;> simp_all

theorem decode_of_frame {s rest : List UInt8} {f : Frame} (h : front magic s = .frame f rest) :
    decode magic s = (f :: (decode magic rest).1, (decode magic rest).2) := by
  rw [decode]
  split <;> simp_all

/-! ## Reading by header and payload -/

/-- What is decoded once a header has announced `n` bytes of some kind. -/
def decodePayload (magic : List UInt8) (kind : UInt32) (n : Nat) (h : n < 2 ^ 32)
    (s : List UInt8) : List Frame × Bool :=
  if s.length < n then ([], false)
  else (takeFrame kind n h s :: (decode magic (s.drop n)).1, (decode magic (s.drop n)).2)

theorem decode_short {s : List UInt8} (h : s.length < magic.length + 8) :
    decode magic s = ([], false) :=
  decode_of_short (by rw [front, if_pos h])

theorem decode_foreign {s : List UInt8} (h : magic.length + 8 ≤ s.length)
    (hmagic : s.take magic.length ≠ magic) : decode magic s = ([], true) :=
  decode_of_foreign (by rw [front, if_neg (not_lt.2 h), if_pos hmagic])

theorem decode_header {s : List UInt8} (h : magic.length + 8 ≤ s.length)
    (hmagic : s.take magic.length = magic) :
    decode magic s =
      decodePayload magic (headKind magic s) (headLength magic s) (headLength_lt magic s)
        (s.drop (magic.length + 8)) := by
  unfold decodePayload
  split
  · rename_i hshort
    apply decode_of_short
    rw [front, if_neg (not_lt.2 h), if_neg (not_not_intro hmagic), if_pos hshort]
  · rename_i hroom
    apply decode_of_frame
    rw [front, if_neg (not_lt.2 h), if_neg (not_not_intro hmagic), if_neg hroom]

/-! ## What a header says stays when more bytes arrive -/

section Append

variable {s : List UInt8} (t : List UInt8)

theorem headLength_append (h : magic.length + 8 ≤ s.length) :
    headLength magic (s ++ t) = headLength magic s := by
  unfold headLength
  rw [List.drop_append_of_le_length (by omega),
    List.take_append_of_le_length (by rw [List.length_drop]; omega)]

theorem headKind_append (h : magic.length + 8 ≤ s.length) :
    headKind magic (s ++ t) = headKind magic s := by
  unfold headKind
  rw [List.drop_append_of_le_length (by omega),
    List.take_append_of_le_length (by rw [List.length_drop]; omega)]

theorem decode_append_foreign (h : s.length = magic.length + 8) (hmagic : s.take magic.length ≠ magic) :
    decode magic (s ++ t) = ([], true) := by
  apply decode_foreign
  · rw [List.length_append]
    omega
  · rwa [List.take_append_of_le_length (by omega)]

/-- A header and what comes after it. -/
theorem decode_append_header (h : s.length = magic.length + 8)
    (hmagic : s.take magic.length = magic) :
    decode magic (s ++ t) =
      decodePayload magic (headKind magic s) (headLength magic s) (headLength_lt magic s) t := by
  have hlen : magic.length + 8 ≤ (s ++ t).length := by
    rw [List.length_append]
    omega
  have htake : (s ++ t).take magic.length = magic := by
    rwa [List.take_append_of_le_length (by omega)]
  have hdrop : (s ++ t).drop (magic.length + 8) = t := List.drop_left' h
  rw [decode_header hlen htake, hdrop]
  simp only [headKind_append t h.ge, headLength_append t h.ge]

end Append

/-- A payload that is there, and what comes after it. -/
theorem decodePayload_append {kind : UInt32} {n : Nat} (h : n < 2 ^ 32) {s : List UInt8}
    (hn : n ≤ s.length) (t : List UInt8) :
    decodePayload magic kind n h (s ++ t) =
      (takeFrame kind n h s :: (decode magic (s.drop n ++ t)).1,
        (decode magic (s.drop n ++ t)).2) := by
  have hlen : ¬ (s ++ t).length < n := by
    rw [List.length_append]
    omega
  have htake : takeFrame kind n h (s ++ t) = takeFrame kind n h s := by
    apply Frame.ext
    · rfl
    · show (s ++ t).take n = s.take n
      rw [List.take_append_of_le_length hn]
  rw [decodePayload, if_neg hlen, htake, List.drop_append_of_le_length hn]

/-! ## Round trip -/

theorem headLength_bytes (f : Frame) (t : List UInt8) :
    headLength magic (f.bytes magic ++ t) = f.payload.length := by
  have hdrop : (f.bytes magic ++ t).drop magic.length =
      leBytes 4 f.payload.length ++ (leBytes 4 f.kind.toNat ++ f.payload ++ t) := by
    simp only [Frame.bytes, List.append_assoc, List.drop_left]
  have hfits : f.payload.length < 256 ^ 4 := lt_of_lt_of_eq f.fits (by norm_num)
  rw [headLength, hdrop, List.take_left' (leBytes_length _ _), leValue_leBytes hfits]

theorem headKind_bytes (f : Frame) (t : List UInt8) :
    headKind magic (f.bytes magic ++ t) = f.kind := by
  have hdrop : (f.bytes magic ++ t).drop (magic.length + 4) =
      leBytes 4 f.kind.toNat ++ (f.payload ++ t) := by
    have hlen : (magic ++ leBytes 4 f.payload.length).length = magic.length + 4 := by
      rw [List.length_append, leBytes_length]
    rw [← hlen]
    simp only [Frame.bytes, List.append_assoc]
    rw [← List.append_assoc, List.drop_left]
  have hfits : f.kind.toNat < 256 ^ 4 := lt_of_lt_of_eq f.kind.toNat_lt (by norm_num)
  rw [headKind, hdrop, List.take_left' (leBytes_length _ _), leValue_leBytes hfits,
    UInt32.ofNat_toNat]

/-- A frame at the front of a stream is read back. -/
theorem front_bytes (f : Frame) (t : List UInt8) :
    front magic (f.bytes magic ++ t) = .frame f t := by
  have hlen : (f.bytes magic ++ t).length = magic.length + 8 + f.payload.length + t.length := by
    rw [List.length_append, f.bytes_length]
  have hmagic : (f.bytes magic ++ t).take magic.length = magic := by
    simp only [Frame.bytes, List.append_assoc, List.take_left]
  have hbody : (f.bytes magic ++ t).drop (magic.length + 8) = f.payload ++ t := by
    have hhead : (magic ++ leBytes 4 f.payload.length ++ leBytes 4 f.kind.toNat).length =
        magic.length + 8 := by
      simp only [List.length_append, leBytes_length]
    rw [← hhead, Frame.bytes, List.append_assoc _ f.payload, List.drop_left]
  unfold front
  rw [if_neg (by omega), if_neg (not_not_intro hmagic)]
  simp only [hbody, headLength_bytes, List.drop_left]
  rw [if_neg (by rw [List.length_append]; omega)]
  congr 1
  apply Frame.ext
  · exact headKind_bytes f t
  · simp only [takeFrame, List.take_left]

/-- **Round trip**: the frames written to a stream are read back, in order. -/
theorem decode_flatMap_bytes (l : List Frame) :
    decode magic (l.flatMap (Frame.bytes magic)) = (l, false) := by
  induction l with
  | nil =>
      apply decode_of_short
      rw [List.flatMap_nil, front, if_pos (by rw [List.length_nil]; omega)]
  | cons f l ih => rw [List.flatMap_cons, decode_of_frame (front_bytes f _), ih]

end Swirl.Lib
