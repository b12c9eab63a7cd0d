import Swirl.Lib.Frames

set_option autoImplicit false

/-! # The outbound queue of an IPC client

`ipc_send_reply` appends a framed message to the write buffer of a client, whose capacity doubles
until the message fits, and `ipc_client_handle_writable` drains it from the front. A client whose
capacity passes 4 MB is disconnected. The buffer is the allocated memory, of which the first
`write_buffer_len` bytes are the queue.
-/

namespace Swirl

open Lib

/-- `ipc_magic` -/
def ipcMagic : List UInt8 := [0x69, 0x33, 0x2d, 0x69, 0x70, 0x63]

/-- `IPC_HEADER_SIZE` -/
def ipcHeaderSize : Nat := ipcMagic.length + 8

/-- `struct ipc_client`. The file descriptor and the event source of the reading side are left
out. -/
structure IpcClient where
  subscribedEvents : BitVec 32
  writeBufferLen : Nat
  writeBufferSize : Nat
  writeBuffer : List UInt8
  /-- Whether `writable_event_source` is set. -/
  writableEventSource : Bool
  pendingLength : UInt32
  pendingType : UInt32

/-- The client that `ipc_handle_connection` sets up. What `malloc` leaves in the buffer is not
read. -/
def IpcClient.start : IpcClient where
  subscribedEvents := 0
  writeBufferLen := 0
  writeBufferSize := 128
  writeBuffer := List.replicate 128 0
  writableEventSource := false
  pendingLength := 0
  pendingType := 0

/-- The bytes that wait to be written. -/
def IpcClient.queue (c : IpcClient) : List UInt8 := c.writeBuffer.take c.writeBufferLen

/-! ## Memory -/

/-- `realloc` of a buffer. The new bytes are written before they are read. -/
def reallocBuffer (buffer : List UInt8) (size : Nat) : List UInt8 :=
  buffer.take size ++ List.replicate (size - buffer.length) 0

/-- `memcpy` of some bytes to an offset of a buffer. -/
def memcpyAt (buffer : List UInt8) (offset : Nat) (bytes : List UInt8) : List UInt8 :=
  buffer.take offset ++ bytes ++ buffer.drop (offset + bytes.length)

section Memory

variable {buffer bytes : List UInt8} {n size offset : Nat}

theorem reallocBuffer_length (h : buffer.length ≤ size) :
    (reallocBuffer buffer size).length = size := by
  simp only [reallocBuffer, List.length_append, List.length_take, List.length_replicate]
  omega

theorem reallocBuffer_take (hn : n ≤ buffer.length) (h : buffer.length ≤ size) :
    (reallocBuffer buffer size).take n = buffer.take n := by
  rw [reallocBuffer, List.take_of_length_le h, List.take_append_of_le_length hn]

theorem memcpyAt_length (h : offset + bytes.length ≤ buffer.length) :
    (memcpyAt buffer offset bytes).length = buffer.length := by
  simp only [memcpyAt, List.length_append, List.length_take, List.length_drop]
  omega

/-- The bytes up to the end of what was copied. -/
theorem memcpyAt_take (h : offset + bytes.length ≤ buffer.length) :
    (memcpyAt buffer offset bytes).take (offset + bytes.length) = buffer.take offset ++ bytes := by
  have hlen : (buffer.take offset ++ bytes).length = offset + bytes.length := by
    rw [List.length_append, List.length_take]
    omega
  rw [memcpyAt, List.take_left' hlen]

end Memory

/-! ## Replies -/

/-- The loop of `ipc_send_reply`: the capacity doubles while the bytes do not fit below it. A
capacity is a `size_t` of 64 bits, which is not zero, and so doubles 64 times at most. -/
def growBuffer (need : Nat) : Nat → Nat → Nat
  | 0, size => size
  | n + 1, size => if size ≤ need then growBuffer need n (size * 2) else size

/-- The header of a message. -/
def ipcHeader (f : Frame) : List UInt8 :=
  ipcMagic ++ leBytes 4 f.payload.length ++ leBytes 4 f.kind.toNat

/-- `ipc_send_reply`, where `memory` says whether `realloc` finds the memory. The client is gone
when it was disconnected. -/
def ipcSendReply (memory : Bool) (c : IpcClient) (f : Frame) : Option IpcClient :=
  let size := growBuffer (c.writeBufferLen + ipcHeaderSize + f.payload.length) 64 c.writeBufferSize
  if 4000000 < size then none
  else if memory = false then none
  else
    let buffer := reallocBuffer c.writeBuffer size
    let buffer := memcpyAt buffer c.writeBufferLen (ipcHeader f)
    let len := c.writeBufferLen + ipcHeaderSize
    let buffer := memcpyAt buffer len f.payload
    some { c with
      writeBuffer := buffer
      writeBufferLen := len + f.payload.length
      writeBufferSize := size
      writableEventSource := true }

/-! ## Writing -/

/-- The conditions that the event loop reports with an event. -/
structure EventMask where
  error : Bool
  hangup : Bool

/-- What `write` returns: how many of the bytes it was given it wrote, or an error. -/
inductive WriteResult
  | written (n : Nat)
  | again
  | error

/-- `ipc_client_handle_writable`: the client, unless it was disconnected, and the bytes written. -/
def ipcClientHandleWritable (c : IpcClient) (mask : EventMask) (result : WriteResult) :
    Option IpcClient × List UInt8 :=
  if mask.error then (none, [])
  else if mask.hangup then (none, [])
  else if c.writeBufferLen = 0 then (some c, [])
  else
    match result with
    | .again => (some c, [])
    | .error => (none, [])
    | .written n =>
        -- `write` takes no more than the bytes it was given
        let written := c.queue.take n
        let rest := (c.writeBuffer.drop written.length).take (c.writeBufferLen - written.length)
        let c := { c with
          writeBuffer := memcpyAt c.writeBuffer 0 rest
          writeBufferLen := c.writeBufferLen - written.length }
        if c.writeBufferLen = 0 then (some { c with writableEventSource := false }, written)
        else (some c, written)

/-! ## Sound buffers -/

/-- The queue is shorter than the allocated memory, whose size is a power of two times 128, and
not past 4 MB. -/
structure IpcClient.Sound (c : IpcClient) : Prop where
  memory : c.writeBuffer.length = c.writeBufferSize
  len : c.writeBufferLen < c.writeBufferSize
  size : ∃ k, k ≤ 14 ∧ c.writeBufferSize = 128 * 2 ^ k

theorem IpcClient.start_sound : IpcClient.start.Sound where
  memory := List.length_replicate
  len := by decide
  size := ⟨0, by omega, rfl⟩

/-- What the loop finds: the capacity doubled, often enough and not once more. -/
theorem growBuffer_spec {need n size : Nat} (hsize : 0 < size) (hn : need < size * 2 ^ n) :
    ∃ j, growBuffer need n size = size * 2 ^ j ∧ need < size * 2 ^ j ∧
      (j = 0 ∨ size * 2 ^ (j - 1) ≤ need) := by
  induction n generalizing size with
  | zero => exact ⟨0, by rw [growBuffer, pow_zero, mul_one], hn, Or.inl rfl⟩
  | succ n ih =>
      unfold growBuffer
      split
      · rename_i hle
        have hn' : need < size * 2 * 2 ^ n := by rwa [mul_assoc, ← pow_succ']
        obtain ⟨j, heq, hlt, hleast⟩ := ih (by omega) hn'
        refine ⟨j + 1, ?_, ?_, Or.inr ?_⟩
        · rw [heq, pow_succ', mul_assoc]
        · rwa [pow_succ', ← mul_assoc]
        · rw [Nat.add_sub_cancel]
          rcases hleast with rfl | hleast
          · rwa [pow_zero, mul_one]
          · cases j with
            | zero => rwa [pow_zero, mul_one]
            | succ j => rwa [Nat.add_sub_cancel, mul_assoc, ← pow_succ'] at hleast
      · rename_i hgt
        exact ⟨0, by rw [pow_zero, mul_one], by rw [pow_zero, mul_one]; omega, Or.inl rfl⟩

/-- The largest capacity that is not past 4 MB. -/
def writeBufferLimit : Nat := 128 * 2 ^ 14

section Reply

variable {c : IpcClient} (f : Frame)

/-- The bytes that a message needs in the buffer, with what is queued. -/
def IpcClient.need (c : IpcClient) (f : Frame) : Nat :=
  c.writeBufferLen + ipcHeaderSize + f.payload.length

/-- The capacity for a message, from a sound one. -/
theorem IpcClient.Sound.grow (h : c.Sound) :
    ∃ k, growBuffer (c.need f) 64 c.writeBufferSize = 128 * 2 ^ k ∧ c.need f < 128 * 2 ^ k ∧
      (c.need f < writeBufferLimit → k ≤ 14) ∧ c.writeBufferSize ≤ 128 * 2 ^ k := by
  obtain ⟨k, hk, hsize⟩ := h.size
  have hcap : c.writeBufferSize ≤ 128 * 2 ^ 14 := by
    rw [hsize]
    exact Nat.mul_le_mul_left _ (Nat.pow_le_pow_right (by decide) hk)
  have hpos : 0 < c.writeBufferSize := by
    rw [hsize]
    exact Nat.mul_pos (by decide) (Nat.two_pow_pos k)
  have hneed : c.need f < c.writeBufferSize * 2 ^ 64 := by
    have hlen := h.len
    have hfits := f.fits
    have hhead : ipcHeaderSize = 14 := rfl
    unfold need
    omega
  obtain ⟨j, heq, hlt, hleast⟩ := growBuffer_spec hpos hneed
  have hpow : c.writeBufferSize * 2 ^ j = 128 * 2 ^ (k + j) := by rw [hsize, mul_assoc, pow_add]
  refine ⟨k + j, heq.trans hpow, hpow ▸ hlt, fun hlimit => ?_, ?_⟩
  · rcases hleast with rfl | hleast
    · exact hk
    · -- one doubling less was not enough, so that it stayed below the limit
      by_contra hgt
      cases j with
      | zero => omega
      | succ j =>
          have hle : 14 ≤ k + j := by omega
          have : 128 * 2 ^ 14 ≤ 128 * 2 ^ (k + j) :=
            Nat.mul_le_mul_left _ (Nat.pow_le_pow_right (by decide) hle)
          rw [Nat.add_sub_cancel, hsize, mul_assoc, ← pow_add] at hleast
          have hlimit' : c.need f < 128 * 2 ^ 14 := hlimit
          omega
  · rw [← hpow]
    exact Nat.le_mul_of_pos_right _ (Nat.two_pow_pos j)

/-- **Which messages disconnect a client**: those that bring what is queued to the limit. -/
theorem IpcClient.Sound.limit (h : c.Sound) :
    growBuffer (c.need f) 64 c.writeBufferSize ≤ 4000000 ↔ c.need f < writeBufferLimit := by
  obtain ⟨k, heq, hlt, hfits, -⟩ := h.grow f
  rw [heq]
  constructor
  · intro hle
    have hk : k ≤ 14 := by
      by_contra hgt
      have : 128 * 2 ^ 15 ≤ 128 * 2 ^ k :=
        Nat.mul_le_mul_left _ (Nat.pow_le_pow_right (by decide) (by omega))
      omega
    calc c.need f < 128 * 2 ^ k := hlt
      _ ≤ 128 * 2 ^ 14 := Nat.mul_le_mul_left _ (Nat.pow_le_pow_right (by decide) hk)
  · intro hlimit
    have : 128 * 2 ^ k ≤ 128 * 2 ^ 14 :=
      Nat.mul_le_mul_left _ (Nat.pow_le_pow_right (by decide) (hfits hlimit))
    omega

theorem ipcHeader_length (f : Frame) : (ipcHeader f).length = ipcHeaderSize := by
  simp only [ipcHeader, List.length_append, leBytes_length]
  rfl

/-- **What a reply does**: the message is disconnected at the limit, or is queued whole behind what
is there. -/
theorem ipcSendReply_spec (h : c.Sound) :
    (ipcSendReply true c f = none ↔ writeBufferLimit ≤ c.need f) ∧
      ∀ memory c', ipcSendReply memory c f = some c' →
        c'.Sound ∧ c'.queue = c.queue ++ f.bytes ipcMagic ∧ c'.writeBufferLen = c.need f ∧
          c'.subscribedEvents = c.subscribedEvents := by
  have hlimit := h.limit f
  obtain ⟨k, heq, hlt, hfits, hsize⟩ := h.grow f
  constructor
  · simp only [ipcSendReply, Bool.true_eq_false, if_false]
    rw [ite_eq_left_iff]
    simp only [reduceCtorEq, imp_false, not_not]
    rw [← not_le]
    exact (not_congr hlimit).trans not_lt
  · intro memory c' hc
    unfold ipcSendReply at hc
    dsimp only at hc
    split at hc
    · cases hc
    · rename_i hle
      split at hc
      · cases hc
      · simp only [Option.some.injEq] at hc
        have hneed : c.writeBufferLen + ipcHeaderSize + f.payload.length = c.need f := rfl
        rw [hneed, heq] at hc hle
        -- the three buffers: reallocated, with the header, with the payload
        have hlen₀ : (reallocBuffer c.writeBuffer (128 * 2 ^ k)).length = 128 * 2 ^ k :=
          reallocBuffer_length (h.memory ▸ hsize)
        have hroom : c.writeBufferLen + (ipcHeader f).length ≤
            (reallocBuffer c.writeBuffer (128 * 2 ^ k)).length := by
          rw [hlen₀, ipcHeader_length]
          omega
        have hlen₁ := memcpyAt_length hroom
        have hroom' : c.writeBufferLen + ipcHeaderSize + f.payload.length ≤
            (memcpyAt (reallocBuffer c.writeBuffer (128 * 2 ^ k)) c.writeBufferLen
              (ipcHeader f)).length := by
          rw [hlen₁, hlen₀]
          omega
        have hk : k ≤ 14 := hfits (hlimit.1 (heq ▸ not_lt.1 hle))
        subst hc
        refine ⟨⟨?_, ?_, ⟨k, hk, rfl⟩⟩, ?_, hneed, rfl⟩
        · exact (memcpyAt_length hroom').trans (hlen₁.trans hlen₀)
        · exact hneed ▸ hlt
        · show (memcpyAt _ (c.writeBufferLen + ipcHeaderSize) f.payload).take
            (c.writeBufferLen + ipcHeaderSize + f.payload.length) = _
          rw [memcpyAt_take hroom', ← ipcHeader_length f, memcpyAt_take hroom,
            reallocBuffer_take (h.memory ▸ h.len.le) (h.memory ▸ hsize)]
          simp only [IpcClient.queue, ipcHeader, Frame.bytes, List.append_assoc]

end Reply

/-- **What a write does**: it takes bytes from the front of the queue. -/
theorem ipcClientHandleWritable_spec {c c' : IpcClient} (h : c.Sound) (mask : EventMask)
    (result : WriteResult) (hc : (ipcClientHandleWritable c mask result).1 = some c') :
    c'.Sound ∧ (ipcClientHandleWritable c mask result).2 ++ c'.queue = c.queue := by
  have hqueue : c.queue.length = c.writeBufferLen := by
    rw [IpcClient.queue, List.length_take, h.memory]
    exact Nat.min_eq_left h.len.le
  unfold ipcClientHandleWritable at hc ⊢
  split at hc
  · cases hc
  rename_i herror
  rw [if_neg herror]
  split at hc
  · cases hc
  rename_i hhangup
  rw [if_neg hhangup]
  split at hc
  · rename_i hempty
    cases hc
    rw [if_pos hempty]
    exact ⟨h, List.nil_append _⟩
  rename_i hempty
  rw [if_neg hempty]
  cases result with
  | again =>
      cases hc
      exact ⟨h, List.nil_append _⟩
  | error => cases hc
  | written n =>
      dsimp only at hc ⊢
      -- the bytes that stay are moved to the front
      have hwritten : (c.queue.take n).length ≤ c.writeBufferLen := by
        rw [List.length_take, hqueue]
        exact Nat.min_le_right _ _
      generalize hm : (c.queue.take n).length = m at hc hwritten ⊢
      have hm' : c.queue.take n = c.queue.take m := by
        rw [← hm, List.length_take, ← List.take_eq_take_min]
      have hrest : ((c.writeBuffer.drop m).take (c.writeBufferLen - m)).length =
          c.writeBufferLen - m := by
        rw [List.length_take, List.length_drop, h.memory]
        have := h.len
        omega
      have hroom : 0 + ((c.writeBuffer.drop m).take (c.writeBufferLen - m)).length ≤
          c.writeBuffer.length := by
        rw [hrest, h.memory]
        have := h.len
        omega
      have hmove : (memcpyAt c.writeBuffer 0
          ((c.writeBuffer.drop m).take (c.writeBufferLen - m))).take (c.writeBufferLen - m) =
          (c.writeBuffer.drop m).take (c.writeBufferLen - m) := by
        have := memcpyAt_take hroom
        rwa [hrest, Nat.zero_add, List.take_zero, List.nil_append] at this
      have hsplit : c.queue.take m ++ (c.writeBuffer.drop m).take (c.writeBufferLen - m) =
          c.queue := by
        have hdrop : c.queue.drop m = (c.writeBuffer.drop m).take (c.writeBufferLen - m) :=
          List.drop_take
        rw [← hdrop, List.take_append_drop]
      have hmemory : (memcpyAt c.writeBuffer 0
          ((c.writeBuffer.drop m).take (c.writeBufferLen - m))).length = c.writeBufferSize := by
        rw [memcpyAt_length hroom, h.memory]
      have hlen : c.writeBufferLen - m < c.writeBufferSize := by
        have := h.len
        omega
      split at hc
      all_goals
        rename_i hdone
        first | rw [if_pos hdone] | rw [if_neg hdone]
        cases hc
        refine ⟨⟨hmemory, hlen, h.size⟩, ?_⟩
        show c.queue.take n ++ (memcpyAt c.writeBuffer 0 _).take (c.writeBufferLen - m) = c.queue
        rw [hmove, hm', hsplit]

/-! ## Runs of the queue -/

/-- A client, unless it was disconnected, and the bytes written to its socket. -/
structure Outbound where
  client : Option IpcClient
  written : List UInt8

/-- `ipc_send_reply` is called, or the socket is writable. -/
inductive OutboundEvent
  | reply (memory : Bool) (f : Frame)
  | writable (mask : EventMask) (result : WriteResult)

/-- The message that an event hands to `ipc_send_reply`. -/
def OutboundEvent.framed : OutboundEvent → Option Frame
  | .reply _ f => some f
  | .writable _ _ => none

def Outbound.step (s : Outbound) (e : OutboundEvent) : Outbound :=
  match s.client with
  | none => s
  | some c =>
      match e with
      | .reply memory f => { s with client := ipcSendReply memory c f }
      | .writable mask result =>
          { client := (ipcClientHandleWritable c mask result).1
            written := s.written ++ (ipcClientHandleWritable c mask result).2 }

/-- A new client, after some events. -/
def Outbound.run (es : List OutboundEvent) : Outbound :=
  es.foldl Outbound.step ⟨some IpcClient.start, []⟩

/-- The bytes written and the bytes queued are the messages `fs`, one after the other. -/
def Outbound.Holds (s : Outbound) (fs : List Frame) : Prop :=
  ∀ c, s.client = some c → c.Sound ∧ s.written ++ c.queue = fs.flatMap (Frame.bytes ipcMagic)

/-- **The step**: an event adds its message. -/
theorem Outbound.Holds.step {s : Outbound} {fs : List Frame} (h : s.Holds fs) (e : OutboundEvent) :
    (s.step e).Holds (fs ++ e.framed.toList) := by
  intro c' hc'
  unfold Outbound.step at hc' ⊢
  cases hclient : s.client with
  | none =>
      rw [hclient] at hc'
      dsimp only at hc'
      rw [hclient] at hc'
      cases hc'
  | some c =>
      obtain ⟨hsound, hbytes⟩ := h c hclient
      rw [hclient] at hc'
      cases e with
      | reply memory f =>
          obtain ⟨hsound', hqueue, -, -⟩ := (ipcSendReply_spec f hsound).2 memory c' hc'
          refine ⟨hsound', ?_⟩
          show s.written ++ c'.queue = (fs ++ [f]).flatMap (Frame.bytes ipcMagic)
          rw [hqueue, ← List.append_assoc, hbytes, List.flatMap_append, List.flatMap_singleton]
      | writable mask result =>
          obtain ⟨hsound', hsplit⟩ := ipcClientHandleWritable_spec hsound mask result hc'
          refine ⟨hsound', ?_⟩
          show s.written ++ (ipcClientHandleWritable c mask result).2 ++ c'.queue =
            (fs ++ []).flatMap (Frame.bytes ipcMagic)
          rw [List.append_assoc, hsplit, List.append_nil, hbytes]

theorem Outbound.Holds.foldl {s : Outbound} {fs : List Frame} (h : s.Holds fs)
    (es : List OutboundEvent) :
    (es.foldl Outbound.step s).Holds (fs ++ es.filterMap OutboundEvent.framed) := by
  induction es generalizing s fs with
  | nil => rwa [List.filterMap_nil, List.append_nil]
  | cons e es ih =>
      have hnext := ih (h.step e)
      rw [List.append_assoc] at hnext
      have hcons : (e :: es).filterMap OutboundEvent.framed =
          e.framed.toList ++ es.filterMap OutboundEvent.framed := by
        cases hframed : e.framed with
        | none => rw [List.filterMap_cons_none hframed, Option.toList_none, List.nil_append]
        | some f => rw [List.filterMap_cons_some hframed]; rfl
      rwa [hcons]

theorem Outbound.run_holds (es : List OutboundEvent) :
    (Outbound.run es).Holds (es.filterMap OutboundEvent.framed) := by
  have hstart : Outbound.Holds ⟨some IpcClient.start, []⟩ [] := by
    intro c hc
    cases hc
    exact ⟨IpcClient.start_sound, rfl⟩
  have hrun := hstart.foldl es
  rwa [List.nil_append] at hrun

/-- **No byte is lost, repeated or reordered**: while the client is connected, the bytes written
and the bytes queued are the messages of all calls of `ipc_send_reply` in order, and the queue
fits its capacity. -/
theorem outbound_run (es : List OutboundEvent) (c : IpcClient)
    (h : (Outbound.run es).client = some c) :
    (Outbound.run es).written ++ c.queue =
        (es.filterMap OutboundEvent.framed).flatMap (Frame.bytes ipcMagic) ∧
      c.queue.length = c.writeBufferLen ∧ c.writeBufferLen ≤ c.writeBufferSize := by
  obtain ⟨hsound, hbytes⟩ := Outbound.run_holds es c h
  refine ⟨hbytes, ?_, hsound.len.le⟩
  rw [IpcClient.queue, List.length_take, hsound.memory]
  exact Nat.min_eq_left hsound.len.le

/-- Two messages, the second of them when part of the first one is written. -/
def twoReplies : List OutboundEvent :=
  [.reply true ⟨0, [7, 8], by decide⟩, .writable ⟨false, false⟩ (.written 9),
    .reply true ⟨10, [], by decide⟩]

theorem twoReplies_connected : (Outbound.run twoReplies).client.isSome := by decide +kernel

theorem outbound_run_twoReplies :
    (Outbound.run twoReplies).written ++
        ((Outbound.run twoReplies).client.get twoReplies_connected).queue =
      (twoReplies.filterMap OutboundEvent.framed).flatMap (Frame.bytes ipcMagic) :=
  (outbound_run twoReplies _ (Option.some_get twoReplies_connected).symm).1

/-- What the client has been written, with what is queued, reads back as the messages. -/
theorem outbound_decode (es : List OutboundEvent) (c : IpcClient)
    (h : (Outbound.run es).client = some c) :
    decode ipcMagic ((Outbound.run es).written ++ c.queue) =
      (es.filterMap OutboundEvent.framed, false) := by
  rw [(Outbound.run_holds es c h).2, decode_flatMap_bytes]

end Swirl
