import Swirl.Ipc.Client
import Swirl.Lib.Runs

set_option autoImplicit false

/-! # The messages an IPC client sends

`ipc_client_handle_readable` is called while bytes of a client are unread. It reads a header when
all of it is there and hands the message to `ipc_client_handle_command` when all of the payload
is; in between, `pending_length` holds the announced length. The messages handed over are the
frames of the byte stream, however the bytes arrive.
-/

namespace Swirl

open Lib

/-- `INT_MAX`, the most that `FIONREAD` can report -/
def unreadMax : Nat := 2147483647

/-- The unread bytes of a socket. The kernel reports how many they are as an `int`, and holds no
more. -/
structure Unread where
  bytes : List UInt8
  fits : bytes.length ≤ unreadMax

/-- `recv` of the first `n` bytes leaves the others. -/
def Unread.drop (u : Unread) (n : Nat) : Unread where
  bytes := u.bytes.drop n
  fits := by
    have := u.fits
    rw [List.length_drop]
    omega

/-- The part of a chunk that there is room for. -/
def Unread.room (u : Unread) (chunk : List UInt8) : List UInt8 := chunk.take (unreadMax - u.bytes.length)

def Unread.receive (u : Unread) (chunk : List UInt8) : Unread where
  bytes := u.bytes ++ u.room chunk
  fits := by
    have := u.fits
    rw [List.length_append, room, List.length_take]
    omega

/-- How a call of `ipc_client_handle_readable` goes: the reported conditions, whether the calls of
`ioctl`, `recv` for the header, `malloc` and `recv` for the payload succeed, and whether the
client is still connected when its command has been handled. -/
structure Readable where
  mask : EventMask
  ioctl : Bool
  header : Bool
  memory : Bool
  payload : Bool
  kept : Bool

/-- No hangup and no error. -/
def Readable.Quiet (r : Readable) : Prop := r = ⟨⟨false, false⟩, true, true, true, true, true⟩

/-- A client, its socket, the messages handed to `ipc_client_handle_command` so far, and all bytes
that have arrived. -/
structure Inbound where
  client : IpcClient
  connected : Bool
  unread : Unread
  handled : List Frame
  arrived : List UInt8

def Inbound.start : Inbound where
  client := IpcClient.start
  connected := true
  unread := ⟨[], Nat.zero_le _⟩
  handled := []
  arrived := []

/-- `ipc_client_disconnect`, on the reading side. -/
def Inbound.disconnect (s : Inbound) : Inbound := { s with connected := false }

/-- The part of `ipc_client_handle_command` that receives the payload of a message. -/
def ipcReceivePayload (s : Inbound) (r : Readable) (length : Nat) (type : UInt32) : Inbound :=
  if r.memory = false then s.disconnect
  else if 0 < length ∧ r.payload = false then s.disconnect
  else
    { s with
      connected := r.kept
      unread := s.unread.drop length
      handled := s.handled ++ [⟨type, s.unread.bytes.take length, by
        have := s.unread.fits
        rw [List.length_take]
        unfold unreadMax at this
        omega⟩] }

/-- The pending length and type are set. -/
def Inbound.pend (s : Inbound) (length type : UInt32) : Inbound :=
  { s with client := { s.client with pendingLength := length, pendingType := type } }

/-- `ipc_client_handle_readable`. Numbers in a header are read as the little-endian host does. -/
def ipcClientHandleReadable (s : Inbound) (r : Readable) : Inbound :=
  if r.mask.error then s.disconnect
  else if r.mask.hangup then s.disconnect
  else if r.ioctl = false then s.disconnect
  else
    let readAvailable := s.unread.bytes.length
    if 0 < s.client.pendingLength.toNat then
      -- the header has already been read
      if s.client.pendingLength.toNat ≤ readAvailable then
        ipcReceivePayload (s.pend 0 s.client.pendingType) r s.client.pendingLength.toNat
          s.client.pendingType
      else s
    else if readAvailable < ipcHeaderSize then s
    else if r.header = false then s.disconnect
    else
      let buf := s.unread.bytes.take ipcHeaderSize
      let s := { s with unread := s.unread.drop ipcHeaderSize }
      if buf.take ipcMagic.length ≠ ipcMagic then s.disconnect
      else
        let length := UInt32.ofNat (headLength ipcMagic buf)
        let type := headKind ipcMagic buf
        if length.toNat ≤ readAvailable - ipcHeaderSize then
          ipcReceivePayload (s.pend 0 type) r length.toNat type
        else s.pend length type

/-- Bytes arrive, or the handler is called. -/
inductive InboundEvent
  | arrive (chunk : List UInt8)
  | readable (r : Readable)

def InboundEvent.Quiet : InboundEvent → Prop
  | .arrive _ => True
  | .readable r => r.Quiet

def Inbound.step (s : Inbound) (e : InboundEvent) : Inbound :=
  if s.connected = false then s
  else
    match e with
    | .arrive chunk =>
        { s with
          unread := s.unread.receive chunk
          arrived := s.arrived ++ s.unread.room chunk }
    | .readable r => ipcClientHandleReadable s r

def Inbound.run (es : List InboundEvent) : Inbound := es.foldl Inbound.step Inbound.start

/-- A call of the handler that goes well. -/
def Inbound.call (s : Inbound) : Inbound :=
  s.step (.readable ⟨⟨false, false⟩, true, true, true, true, true⟩)

/-! ## What is left to hand over -/

/-- The frames of some unread bytes, with those of the header that was read before. -/
def IpcClient.remaining (c : IpcClient) (u : List UInt8) : List Frame × Bool :=
  if 0 < c.pendingLength.toNat then
    decodePayload ipcMagic c.pendingType c.pendingLength.toNat c.pendingLength.toNat_lt u
  else decode ipcMagic u

/-- All frames that a connection hands over when `t` arrives next, and whether it ends with a
header that starts with something else. -/
def Inbound.outlook (s : Inbound) (t : List UInt8) : List Frame × Bool :=
  if s.connected then
    (s.handled ++ (s.client.remaining (s.unread.bytes ++ t)).1,
      (s.client.remaining (s.unread.bytes ++ t)).2)
  else (s.handled, true)

/-- The connection hands over the frames of its bytes, whatever arrives next. -/
def Inbound.Reads (s : Inbound) : Prop := ∀ t, decode ipcMagic (s.arrived ++ t) = s.outlook t

theorem Inbound.start_reads : Inbound.start.Reads := fun _ => rfl

theorem IpcClient.remaining_pending {c : IpcClient} (h : 0 < c.pendingLength.toNat)
    (u : List UInt8) :
    c.remaining u =
      decodePayload ipcMagic c.pendingType c.pendingLength.toNat c.pendingLength.toNat_lt u :=
  if_pos h

theorem IpcClient.remaining_none {c : IpcClient} (h : ¬ 0 < c.pendingLength.toNat)
    (u : List UInt8) : c.remaining u = decode ipcMagic u := if_neg h

/-- A command that is handled is the next frame. -/
theorem Inbound.outlook_handled (s : Inbound) {r : Readable} (hr : r.Quiet)
    (hnone : ¬ 0 < s.client.pendingLength.toNat) {n : Nat} (kind : UInt32)
    (hn : n ≤ s.unread.bytes.length) (h : n < 2 ^ 32) (t : List UInt8) :
    (ipcReceivePayload s r n kind).outlook t =
      (s.handled ++ (decodePayload ipcMagic kind n h (s.unread.bytes ++ t)).1,
        (decodePayload ipcMagic kind n h (s.unread.bytes ++ t)).2) := by
  subst hr
  rw [decodePayload_append h hn]
  unfold ipcReceivePayload outlook
  simp only [Bool.true_eq_false, and_false, if_false, if_true]
  rw [IpcClient.remaining_none hnone, List.append_assoc]
  rfl

/-- A header that was read announces the next frame. -/
theorem Inbound.outlook_pend (s : Inbound) (hs : s.connected = true) {length kind : UInt32}
    (hlength : 0 < length.toNat) (t : List UInt8) :
    (s.pend length kind).outlook t =
      (s.handled ++ (decodePayload ipcMagic kind length.toNat length.toNat_lt
          (s.unread.bytes ++ t)).1,
        (decodePayload ipcMagic kind length.toNat length.toNat_lt (s.unread.bytes ++ t)).2) := by
  have hrem : (s.pend length kind).client.remaining (s.unread.bytes ++ t) =
      decodePayload ipcMagic kind length.toNat length.toNat_lt (s.unread.bytes ++ t) :=
    IpcClient.remaining_pending hlength _
  rw [← hrem]
  exact if_pos hs

theorem ipcReceivePayload_arrived (s : Inbound) {r : Readable} (hr : r.Quiet) (n : Nat)
    (kind : UInt32) :
    (ipcReceivePayload s r n kind).arrived = s.arrived ∧
      (ipcReceivePayload s r n kind).unread.bytes.length = s.unread.bytes.length - n := by
  subst hr
  unfold ipcReceivePayload
  simp only [Bool.true_eq_false, and_false, if_false]
  exact ⟨trivial, List.length_drop⟩

/-- What a call that goes well does: it keeps the outlook, and takes bytes unless what is left has
to wait for more. -/
structure Inbound.Called (s s' : Inbound) : Prop where
  arrived : s'.arrived = s.arrived
  outlook : ∀ t, s'.outlook t = s.outlook t
  progress : s'.unread.bytes.length < s.unread.bytes.length ∨
    s' = s ∧ s.client.remaining s.unread.bytes = ([], false)

/-- The header has been read, and the payload is read when it is there. -/
theorem ipcClientHandleReadable_payload {s : Inbound} {r : Readable} (hr : r.Quiet)
    (hs : s.connected = true) (hpending : 0 < s.client.pendingLength.toNat) :
    s.Called (ipcClientHandleReadable s r) := by
  have hquiet := hr
  subst hr
  unfold ipcClientHandleReadable
  simp only [Bool.false_eq_true, Bool.true_eq_false, if_false]
  rw [if_pos hpending]
  by_cases hroom : s.client.pendingLength.toNat ≤ s.unread.bytes.length
  · rw [if_pos hroom]
    obtain ⟨harrived, hunread⟩ := ipcReceivePayload_arrived
      (s.pend 0 s.client.pendingType) hquiet s.client.pendingLength.toNat
      s.client.pendingType
    refine ⟨harrived, fun t => ?_, Or.inl ?_⟩
    · have hnext := Inbound.outlook_handled (s.pend 0 s.client.pendingType) hquiet (lt_irrefl 0)
        s.client.pendingType hroom s.client.pendingLength.toNat_lt t
      rw [hnext, Inbound.outlook, if_pos hs, IpcClient.remaining_pending hpending]
      rfl
    · rw [hunread]
      show s.unread.bytes.length - s.client.pendingLength.toNat < s.unread.bytes.length
      omega
  · rw [if_neg hroom]
    refine ⟨rfl, fun t => rfl, Or.inr ⟨rfl, ?_⟩⟩
    rw [IpcClient.remaining_pending hpending, decodePayload, if_pos (not_le.1 hroom)]

/-- The header is there, and is read. -/
theorem ipcClientHandleReadable_header {s : Inbound} {r : Readable} (hr : r.Quiet)
    (hs : s.connected = true) (hpending : ¬ 0 < s.client.pendingLength.toNat)
    (hle : ipcHeaderSize ≤ s.unread.bytes.length) : s.Called (ipcClientHandleReadable s r) := by
  have hquiet := hr
  subst hr
  have hhead : ipcHeaderSize = ipcMagic.length + 8 := rfl
  unfold ipcClientHandleReadable
  simp only [Bool.false_eq_true, Bool.true_eq_false, if_false]
  rw [if_neg hpending, if_neg (not_lt.2 hle)]
  have hbuf : (s.unread.bytes.take ipcHeaderSize).length = ipcMagic.length + 8 := by
    rw [List.length_take]
    omega
  have hunread : ∀ t, s.unread.bytes ++ t =
      s.unread.bytes.take ipcHeaderSize ++ (s.unread.bytes.drop ipcHeaderSize ++ t) := by
    intro t
    rw [← List.append_assoc, List.take_append_drop]
  have hdrop : (s.unread.drop ipcHeaderSize).bytes.length =
      s.unread.bytes.length - ipcHeaderSize := List.length_drop
  set s₁ : Inbound := { s with unread := s.unread.drop ipcHeaderSize } with hs₁
  by_cases hmagic : (s.unread.bytes.take ipcHeaderSize).take ipcMagic.length = ipcMagic
  · rw [if_neg (not_not_intro hmagic)]
    have hlength : (UInt32.ofNat (headLength ipcMagic
        (s.unread.bytes.take ipcHeaderSize))).toNat =
        headLength ipcMagic (s.unread.bytes.take ipcHeaderSize) :=
      UInt32.toNat_ofNat_of_lt' (headLength_lt _ _)
    have hleft : ∀ t, s.outlook t =
        (s.handled ++ (decodePayload ipcMagic
            (headKind ipcMagic (s.unread.bytes.take ipcHeaderSize))
            (headLength ipcMagic (s.unread.bytes.take ipcHeaderSize)) (headLength_lt _ _)
            (s.unread.bytes.drop ipcHeaderSize ++ t)).1,
          (decodePayload ipcMagic (headKind ipcMagic (s.unread.bytes.take ipcHeaderSize))
            (headLength ipcMagic (s.unread.bytes.take ipcHeaderSize)) (headLength_lt _ _)
            (s.unread.bytes.drop ipcHeaderSize ++ t)).2) := by
      intro t
      rw [Inbound.outlook, if_pos hs, IpcClient.remaining_none hpending, hunread,
        decode_append_header _ hbuf hmagic]
    split
    · -- the payload is there as well
      rename_i hroom
      rw [hlength] at hroom ⊢
      obtain ⟨harrived, hleft'⟩ := ipcReceivePayload_arrived
        (s₁.pend 0 (headKind ipcMagic (s.unread.bytes.take ipcHeaderSize))) hquiet
        (headLength ipcMagic (s.unread.bytes.take ipcHeaderSize))
        (headKind ipcMagic (s.unread.bytes.take ipcHeaderSize))
      refine ⟨harrived, fun t => ?_, Or.inl ?_⟩
      · have hnext := Inbound.outlook_handled
          (s₁.pend 0 (headKind ipcMagic (s.unread.bytes.take ipcHeaderSize))) hquiet
          (lt_irrefl 0) (headKind ipcMagic (s.unread.bytes.take ipcHeaderSize))
          (hroom.trans hdrop.ge) (headLength_lt _ _) t
        rw [hnext, hleft]
        rfl
      · rw [hleft']
        show (s.unread.drop ipcHeaderSize).bytes.length - _ < s.unread.bytes.length
        rw [hdrop]
        omega
    · -- the payload is waited for
      rename_i hwait
      refine ⟨rfl, fun t => ?_, Or.inl ?_⟩
      · rw [s₁.outlook_pend hs (by omega), hleft]
        simp only [hlength]
        rfl
      · show (s.unread.drop ipcHeaderSize).bytes.length < s.unread.bytes.length
        rw [hdrop]
        omega
  · -- another magic
    rw [if_pos hmagic]
    refine ⟨rfl, fun t => ?_, Or.inl ?_⟩
    · rw [Inbound.outlook, Inbound.outlook, if_pos hs, IpcClient.remaining_none hpending,
        hunread, decode_append_foreign _ hbuf hmagic, List.append_nil]
      rfl
    · show (s.unread.drop ipcHeaderSize).bytes.length < s.unread.bytes.length
      rw [hdrop]
      omega

/-- **The step**: a call of `ipc_client_handle_readable` that goes well. -/
theorem ipcClientHandleReadable_called {s : Inbound} {r : Readable} (hr : r.Quiet)
    (hs : s.connected = true) : s.Called (ipcClientHandleReadable s r) := by
  by_cases hpending : 0 < s.client.pendingLength.toNat
  · exact ipcClientHandleReadable_payload hr hs hpending
  · by_cases hshort : s.unread.bytes.length < ipcHeaderSize
    · -- the header is waited for
      subst hr
      unfold ipcClientHandleReadable
      simp only [Bool.false_eq_true, Bool.true_eq_false, if_false]
      rw [if_neg hpending, if_pos hshort]
      refine ⟨rfl, fun t => rfl, Or.inr ⟨rfl, ?_⟩⟩
      rw [IpcClient.remaining_none hpending, decode_short hshort]
    · exact ipcClientHandleReadable_header hr hs hpending (not_lt.1 hshort)

/-! ## Runs -/

theorem Inbound.step_disconnected {s : Inbound} (hs : s.connected = false) (e : InboundEvent) :
    s.step e = s := if_pos hs

theorem Inbound.step_arrive {s : Inbound} (hs : s.connected = true) (chunk : List UInt8) :
    s.step (.arrive chunk) =
      { s with
        unread := s.unread.receive chunk
        arrived := s.arrived ++ s.unread.room chunk } := by
  rw [step, if_neg (by rw [hs]; decide)]

theorem Inbound.step_readable {s : Inbound} (hs : s.connected = true) (r : Readable) :
    s.step (.readable r) = ipcClientHandleReadable s r := by
  rw [step, if_neg (by rw [hs]; decide)]

theorem Inbound.Reads.step {s : Inbound} (h : s.Reads) {e : InboundEvent} (he : e.Quiet) :
    (s.step e).Reads := by
  cases hs : s.connected with
  | false => rwa [Inbound.step_disconnected hs]
  | true =>
      intro t
      cases e with
      | arrive chunk =>
          -- what arrives was next
          rw [Inbound.step_arrive hs]
          show decode ipcMagic (s.arrived ++ s.unread.room chunk ++ t) = _
          rw [List.append_assoc, h, Inbound.outlook, Inbound.outlook, ← List.append_assoc]
          rfl
      | readable r =>
          have hcalled := ipcClientHandleReadable_called he hs
          rw [Inbound.step_readable hs, hcalled.arrived, hcalled.outlook, h]

theorem Inbound.run_reads {es : List InboundEvent} (h : ∀ e ∈ es, e.Quiet) :
    (Inbound.run es).Reads :=
  foldl_invariant Inbound.step es (fun _ e he hs => hs.step (h e he)) Inbound.start_reads

/-- Everything complete has been handed over, and the client is disconnected if a header starts
with something else. -/
structure Inbound.Complete (s : Inbound) : Prop where
  handled : s.handled = (decode ipcMagic s.arrived).1
  disconnected : s.connected = !(decode ipcMagic s.arrived).2

theorem Inbound.Reads.complete_disconnected {s : Inbound} (h : s.Reads)
    (hs : s.connected = false) : s.Complete := by
  have hdecode := h []
  rw [List.append_nil, outlook, if_neg (by rw [hs]; decide)] at hdecode
  constructor
  · rw [hdecode]
  · rw [hdecode, hs]
    rfl

theorem Inbound.Reads.complete_waiting {s : Inbound} (h : s.Reads) (hs : s.connected = true)
    (hleft : s.client.remaining s.unread.bytes = ([], false)) : s.Complete := by
  have hdecode := h []
  rw [List.append_nil, outlook, if_pos hs, List.append_nil, hleft, List.append_nil] at hdecode
  constructor
  · rw [hdecode]
  · rw [hdecode, hs]
    rfl

theorem Inbound.call_quiet :
    InboundEvent.Quiet (.readable ⟨⟨false, false⟩, true, true, true, true, true⟩) := rfl

/-- Calls as many as there are unread bytes, and one more, hand over everything. -/
theorem Inbound.Reads.complete {n : Nat} {s : Inbound} (h : s.Reads)
    (hn : s.unread.bytes.length < n) : (Inbound.call^[n] s).Complete := by
  induction n generalizing s with
  | zero => omega
  | succ n ih =>
      rw [Function.iterate_succ_apply]
      cases hs : s.connected with
      | false =>
          have hfix : s.call = s := Inbound.step_disconnected hs _
          rw [hfix, Function.iterate_fixed hfix]
          exact h.complete_disconnected hs
      | true =>
          have hcalled : s.Called s.call := by
            rw [Inbound.call, Inbound.step_readable hs]
            exact ipcClientHandleReadable_called rfl hs
          rcases hcalled.progress with hlt | ⟨hfix, hleft⟩
          · exact ih (h.step Inbound.call_quiet) (by omega)
          · rw [hfix, Function.iterate_fixed hfix]
            exact h.complete_waiting hs hleft

/-- What was handed over is always the beginning of the frames, and the client is disconnected
only after all frames before a header that starts with something else. -/
structure Inbound.InOrder (s : Inbound) : Prop where
  handled : s.handled <+: (decode ipcMagic s.arrived).1
  disconnected : s.connected = false → s.Complete

theorem Inbound.Reads.inOrder {s : Inbound} (h : s.Reads) : s.InOrder := by
  constructor
  · cases hs : s.connected with
    | false => rw [(h.complete_disconnected hs).handled]
    | true =>
        have hdecode := h []
        rw [List.append_nil, outlook, if_pos hs] at hdecode
        rw [hdecode]
        exact List.prefix_append _ _
  · exact h.complete_disconnected

/-- **Framing**: however the bytes of a client arrive, with no hangup and no error, the messages
handed to `ipc_client_handle_command` are the frames of its bytes in order, up to the first header
with another magic, where the client is disconnected. When the handler is called on while bytes
are unread, all of them are handed over. -/
theorem inbound_run (es : List InboundEvent) (h : ∀ e ∈ es, e.Quiet) :
    (Inbound.run es).InOrder ∧
      ∀ n, (Inbound.run es).unread.bytes.length < n → (Inbound.call^[n] (Inbound.run es)).Complete :=
  ⟨(Inbound.run_reads h).inOrder, fun _ hn => (Inbound.run_reads h).complete hn⟩

/-- A header in two parts, after which the handler is called. -/
def splitHeader : List InboundEvent :=
  [.arrive [0x69, 0x33, 0x2d], .readable ⟨⟨false, false⟩, true, true, true, true, true⟩,
    .arrive [0x69, 0x70, 0x63, 0, 0, 0, 0, 4, 0, 0, 0]]

theorem splitHeader_quiet : ∀ e ∈ splitHeader, e.Quiet := by
  intro e he
  simp only [splitHeader, List.mem_cons, List.not_mem_nil, or_false] at he
  rcases he with rfl | rfl | rfl
  · trivial
  · rfl
  · trivial

theorem inbound_run_splitHeader : (Inbound.run splitHeader).InOrder :=
  (inbound_run splitHeader splitHeader_quiet).1

end Swirl
