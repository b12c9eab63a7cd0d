import Swirl.Ipc.Client

set_option autoImplicit false

/-! # A reply is received

`ipc_recv_response` of `ipc-client.c`, for any peer: how the bytes are cut into chunks, and whether
the connection ends in a close or in an error, is up to it. The header loop takes the end of the
connection for a failure, the payload loop only an error. The memory for the payload is one byte
more than its announced size, in 32 bits.
-/

namespace Swirl

open Lib

/-! ## The peer -/

/-- How a connection ends: `recv` gives `0`, or `-1`. -/
inductive PeerEnd where
  | closed | error
  deriving DecidableEq, Repr

/-- What `recv` returns at the end. -/
def PeerEnd.received : PeerEnd → Int
  | .closed => 0
  | .error => -1

/-- What a peer sends, in the chunks that arrive together, and how it ends the connection. -/
structure Peer where
  chunks : List (List UInt8)
  ending : PeerEnd
  nonempty : ∀ c ∈ chunks, c ≠ []

/-- All bytes a peer sends. -/
def Peer.bytes (p : Peer) : List UInt8 := p.chunks.flatten

/-- Some bytes that are left of a chunk come first. -/
def Peer.unread (l : List UInt8) (p : Peer) : Peer :=
  if h : l = [] then p
  else { p with
    chunks := l :: p.chunks
    nonempty := List.forall_mem_cons.2 ⟨h, p.nonempty⟩ }

/-- `recv` of at most `n` bytes, and the peer after it; `none` is an error, and no bytes are the end
of the connection. -/
def Peer.recv (p : Peer) (n : Nat) : Option (List UInt8) × Peer :=
  match h : p.chunks with
  | [] => (match p.ending with | .closed => some [] | .error => none, p)
  | c :: cs =>
      (some (c.take n), Peer.unread (c.drop n)
        { p with chunks := cs, nonempty := fun d hd => p.nonempty d (h ▸ List.mem_cons_of_mem c hd) })

/-! ## The loops -/

/-- What has been written into a buffer, and the peer. -/
structure RecvState where
  buffer : List UInt8
  peer : Peer

/-- A loop over `recv` fills the buffer, aborts, or has not ended yet. -/
inductive RecvRun where
  | complete (s : RecvState)
  | abort (s : RecvState)
  | running (s : RecvState)

def RecvRun.state : RecvRun → RecvState
  | .complete s | .abort s | .running s => s

/-- The two loops of `ipc_recv_response`, which fill a buffer to a size. They differ in what
`received` they give up on. -/
def recvLoop (givesUp : Int → Bool) (size : Nat) : Nat → RecvState → RecvRun
  | 0, s => .running s
  | fuel + 1, s =>
      if s.buffer.length < size then
        match s.peer.recv (size - s.buffer.length) with
        | (none, peer) =>
            if givesUp (-1) then .abort ⟨s.buffer, peer⟩
            else recvLoop givesUp size fuel ⟨s.buffer, peer⟩
        | (some l, peer) =>
            if givesUp l.length then .abort ⟨s.buffer, peer⟩
            else recvLoop givesUp size fuel ⟨s.buffer ++ l, peer⟩
      else .complete s

/-- `struct ipc_response` -/
structure IpcResponse where
  size : Nat
  type : UInt32
  payload : List UInt8

/-- How a call of `ipc_recv_response` stands. -/
inductive ResponseResult where
  | running | abort | null
  | response (r : IpcResponse)

/-- A call, with the number of bytes it has written from the start of the payload on, and the
number it has allocated there. -/
structure ResponseRun where
  result : ResponseResult
  written : Nat
  allocated : Nat

/-- `sizeof(struct ipc_response)` -/
def ipcResponseSize : Nat := 16

/-- `ipc_recv_response`, after so many turns of each loop; `malloc` says which sizes it finds
memory for. -/
def ipcRecvResponse (malloc : Nat → Bool) (fuel : Nat) (peer : Peer) : ResponseRun :=
  match recvLoop (fun received => decide (received ≤ 0)) ipcHeaderSize fuel ⟨[], peer⟩ with
  | .running _ => ⟨.running, 0, 0⟩
  | .abort _ => ⟨.abort, 0, 0⟩
  | .complete s =>
      if malloc ipcResponseSize = false then ⟨.null, 0, 0⟩
      else
        let size := headLength ipcMagic s.buffer
        let allocated := (size + 1) % 2 ^ 32
        if malloc allocated = false then ⟨.null, 0, 0⟩
        else
          match recvLoop (fun received => decide (received < 0)) size fuel ⟨[], s.peer⟩ with
          | .running p => ⟨.running, p.buffer.length, allocated⟩
          | .abort p => ⟨.abort, p.buffer.length, allocated⟩
          -- `payload[size] = 0`
          | .complete p =>
              ⟨.response ⟨size, headKind ipcMagic s.buffer, p.buffer⟩, size + 1, allocated⟩

section Loop

variable {givesUp : Int → Bool} {size fuel n : Nat} {s : RecvState} {p : Peer}

theorem bytes_unread (l : List UInt8) (p : Peer) : (p.unread l).bytes = l ++ p.bytes := by
  unfold Peer.unread
  split
  next h =>
    rw [h]
    rfl
  · rfl

theorem ending_unread (l : List UInt8) (p : Peer) : (p.unread l).ending = p.ending := by
  unfold Peer.unread
  split <;> rfl

/-- What `recv` gives comes off the front; at the end it gives what the end is. -/
theorem recv_cases (p : Peer) (hn : 0 < n) :
    (p.bytes = [] ∧
      p.recv n = (match p.ending with | .closed => some [] | .error => none, p)) ∨
    ∃ l q, p.recv n = (some l, q) ∧ 0 < l.length ∧ l.length ≤ n ∧ p.bytes = l ++ q.bytes ∧
      q.ending = p.ending := by
  obtain ⟨chunks, ending, hne⟩ := p
  cases chunks with
  | nil => exact Or.inl ⟨rfl, rfl⟩
  | cons c cs =>
      right
      have hc : 0 < c.length := List.length_pos_iff.2 (hne c List.mem_cons_self)
      refine ⟨c.take n, _, rfl, ?_, ?_, ?_, ?_⟩
      · rw [List.length_take]
        exact Nat.lt_min.2 ⟨hn, hc⟩
      · rw [List.length_take]
        exact Nat.min_le_left _ _
      · rw [bytes_unread, ← List.append_assoc, List.take_append_drop]
        rfl
      · exact ending_unread _ _

/-- What a loop comes to: a buffer of the size, or a failure at the end of the connection. With a
turn for every byte and one more, a loop that still runs is at the end of the connection too, and
gets no further. -/
def RecvRun.Ended (givesUp : Int → Bool) (size : Nat) (enough : Prop) : RecvRun → Prop
  | .complete s => s.buffer.length = size
  | .abort s =>
      s.peer.bytes = [] ∧ s.buffer.length < size ∧ givesUp s.peer.ending.received = true
  | .running s =>
      enough → s.peer.bytes = [] ∧ s.buffer.length < size ∧
        givesUp s.peer.ending.received = false

/-- At the end of the connection a loop gives up, or turns forever. -/
theorem recvLoop_end (hlt : s.buffer.length < size) (hbytes : s.peer.bytes = []) :
    recvLoop givesUp size (fuel + 1) s =
      if givesUp s.peer.ending.received then .abort s else recvLoop givesUp size fuel s := by
  obtain ⟨-, hrecv⟩ | ⟨l, q, -, hpos, -, hl, -⟩ :=
    recv_cases s.peer (n := size - s.buffer.length) (by omega)
  · rw [recvLoop, if_pos hlt, hrecv]
    cases s.peer.ending with
    | error => rfl
    | closed =>
        show (if givesUp 0 then _ else recvLoop givesUp size fuel ⟨s.buffer ++ [], s.peer⟩) = _
        rw [List.append_nil]
        rfl
  · rw [hbytes] at hl
    obtain ⟨rfl, -⟩ := List.append_eq_nil_iff.1 hl.symm
    exact absurd hpos (Nat.lt_irrefl 0)

theorem recvLoop_stuck (hlt : s.buffer.length < size) (hbytes : s.peer.bytes = [])
    (hgoes : givesUp s.peer.ending.received = false) (fuel : Nat) :
    recvLoop givesUp size fuel s = .running s := by
  induction fuel with
  | zero => rfl
  | succ fuel ih =>
      rw [recvLoop_end hlt hbytes, hgoes]
      exact ih

/-- **A loop** takes the bytes in order, and no more than the size. -/
theorem recvLoop_spec (hgives : ∀ k : Nat, 0 < k → givesUp k = false)
    (hs : s.buffer.length ≤ size) (fuel : Nat) :
    let r := recvLoop givesUp size fuel s
    r.state.buffer.length ≤ size ∧
      r.state.buffer ++ r.state.peer.bytes = s.buffer ++ s.peer.bytes ∧
      r.state.peer.ending = s.peer.ending ∧
      r.Ended givesUp size (s.peer.bytes.length < fuel) := by
  induction fuel generalizing s with
  | zero => exact ⟨hs, rfl, rfl, fun h => absurd h (Nat.not_lt_zero _)⟩
  | succ fuel ih =>
      by_cases hlt : s.buffer.length < size
      · obtain ⟨hend, -⟩ | ⟨l, q, hrecv, hpos, hle, hbytes, hending⟩ :=
          recv_cases s.peer (n := size - s.buffer.length) (by omega)
        · cases hgives' : givesUp s.peer.ending.received with
          | true =>
              rw [recvLoop_end hlt hend, hgives']
              exact ⟨hs, rfl, rfl, hend, hlt, hgives'⟩
          | false =>
              rw [recvLoop_stuck hlt hend hgives']
              exact ⟨hs, rfl, rfl, fun _ => ⟨hend, hlt, hgives'⟩⟩
        · obtain ⟨hsize, hall, hsame, hended⟩ := ih (s := ⟨s.buffer ++ l, q⟩) (by
            rw [List.length_append]
            omega)
          have hstep : recvLoop givesUp size (fuel + 1) s =
              recvLoop givesUp size fuel ⟨s.buffer ++ l, q⟩ := by
            rw [recvLoop, if_pos hlt, hrecv]
            dsimp only
            rw [if_neg (by rw [hgives l.length hpos]; exact Bool.false_ne_true)]
          rw [hstep]
          refine ⟨hsize, ?_, hsame.trans hending, ?_⟩
          · rw [hall, hbytes, List.append_assoc]
          · -- the bytes that came make up for the turn
            have hfuel : s.peer.bytes.length < fuel + 1 → q.bytes.length < fuel := by
              rw [hbytes, List.length_append]
              omega
            cases hrun : recvLoop givesUp size fuel ⟨s.buffer ++ l, q⟩ with
            | complete t =>
                rw [hrun] at hended
                exact hended
            | abort t =>
                rw [hrun] at hended
                exact hended
            | running t =>
                rw [hrun] at hended
                exact fun h => hended (hfuel h)
      · rw [recvLoop, if_neg hlt]
        exact ⟨hs, rfl, rfl, Nat.le_antisymm hs (not_lt.1 hlt)⟩

/-- Where no bytes are left, all of them are in the buffer. -/
theorem received_all {l : List UInt8} {t : RecvState} (hall : t.buffer ++ t.peer.bytes = l)
    (hnone : t.peer.bytes = []) : t.buffer = l := by
  rw [hnone, List.append_nil] at hall
  exact hall

/-- What a loop comes to that starts with an empty buffer. -/
theorem recvLoop_cases (hgives : ∀ k : Nat, 0 < k → givesUp k = false) (size : Nat) (p : Peer)
    (fuel : Nat) :
    (∃ t, recvLoop givesUp size fuel ⟨[], p⟩ = .complete t ∧ size ≤ p.bytes.length ∧
      t.buffer = p.bytes.take size ∧ t.peer.bytes = p.bytes.drop size ∧
      t.peer.ending = p.ending) ∨
    (∃ t, recvLoop givesUp size fuel ⟨[], p⟩ = .abort t ∧ p.bytes.length < size ∧
      t.buffer = p.bytes ∧ givesUp p.ending.received = true) ∨
    ∃ t, recvLoop givesUp size fuel ⟨[], p⟩ = .running t ∧
      t.buffer.length ≤ min size p.bytes.length ∧
      (p.bytes.length < fuel → p.bytes.length < size ∧ t.buffer = p.bytes ∧
        givesUp p.ending.received = false) := by
  obtain ⟨hsize, hall, hending, hended⟩ :=
    recvLoop_spec (s := ⟨[], p⟩) hgives (Nat.zero_le size) fuel
  rw [List.nil_append] at hall
  cases hrun : recvLoop givesUp size fuel ⟨[], p⟩ with
  | complete t =>
      rw [hrun] at hsize hall hending hended
      have hlen : t.buffer.length = size := hended
      refine Or.inl ⟨t, rfl, ?_, ?_, ?_, hending⟩
      · rw [← hall, List.length_append, ← hlen]
        exact Nat.le_add_right _ _
      · rw [← hall, ← hlen]
        exact (List.take_left' rfl).symm
      · rw [← hall, ← hlen]
        exact (List.drop_left' rfl).symm
  | abort t =>
      rw [hrun] at hsize hall hending hended
      obtain ⟨hnone, hlt, hgaveUp⟩ := hended
      have hbuffer := received_all hall hnone
      refine Or.inr (Or.inl ⟨t, rfl, hbuffer ▸ hlt, hbuffer, ?_⟩)
      rw [show p.ending = t.peer.ending from hending.symm]
      exact hgaveUp
  | running t =>
      rw [hrun] at hsize hall hending hended
      have hlen : t.buffer.length ≤ p.bytes.length := by
        rw [← hall, List.length_append]
        exact Nat.le_add_right _ _
      refine Or.inr (Or.inr ⟨t, rfl, le_min hsize hlen, fun hfuel => ?_⟩)
      obtain ⟨hnone, hlt, hgoes⟩ := hended hfuel
      have hbuffer := received_all hall hnone
      refine ⟨hbuffer ▸ hlt, hbuffer, ?_⟩
      rw [show p.ending = t.peer.ending from hending.symm]
      exact hgoes

end Loop

/-! ## The reply -/

section Response

variable {malloc : Nat → Bool} {fuel : Nat} {p : Peer}

/-- What the header announces. -/
def Peer.announced (p : Peer) : Nat := headLength ipcMagic (p.bytes.take ipcHeaderSize)

/-- What follows the header. -/
def Peer.body (p : Peer) : List UInt8 := p.bytes.drop ipcHeaderSize

/-- The number of bytes that are allocated for the payload. -/
def Peer.allocated (p : Peer) : Nat := (p.announced + 1) % 2 ^ 32

/-- A call ends, stays within the memory for the payload, and gives no other payload than the bytes
after the header. -/
def Receives (malloc : Nat → Bool) (p : Peer) : Prop :=
  (∃ fuel, (ipcRecvResponse malloc fuel p).result ≠ .running) ∧
  (∀ fuel, (ipcRecvResponse malloc fuel p).written ≤ (ipcRecvResponse malloc fuel p).allocated) ∧
  ∀ fuel r, (ipcRecvResponse malloc fuel p).result = .response r →
    r.payload.length = r.size ∧ r.payload = p.body.take r.size

/-- What has to hold for a call to do so: the payload loop is not reached; or its memory has a size
that fits in 32 bits, and the payload is complete or cut off by an error; or it has not, and the
connection breaks right after the header. -/
def Receivable (malloc : Nat → Bool) (p : Peer) : Prop :=
  p.bytes.length < ipcHeaderSize ∨ malloc ipcResponseSize = false ∨ malloc p.allocated = false ∨
  (p.announced + 1 < 2 ^ 32 ∧ (p.announced ≤ p.body.length ∨ p.ending = .error)) ∨
  (p.announced + 1 = 2 ^ 32 ∧ p.body = [] ∧ p.ending = .error)

/-- The payload loop, over a peer from whom the header has been read. -/
def payloadLoop (size fuel : Nat) (q : Peer) : RecvRun :=
  recvLoop (fun received => decide (received < 0)) size fuel ⟨[], q⟩

/-- **A call** runs or aborts in the header, finds no memory, or comes to the payload loop. -/
theorem ipcRecvResponse_cases (malloc : Nat → Bool) (fuel : Nat) (p : Peer) :
    (ipcRecvResponse malloc fuel p = ⟨.running, 0, 0⟩ ∧ fuel ≤ p.bytes.length) ∨
    (ipcRecvResponse malloc fuel p = ⟨.abort, 0, 0⟩ ∧ p.bytes.length < ipcHeaderSize) ∨
    ipcHeaderSize ≤ p.bytes.length ∧
      (ipcRecvResponse malloc fuel p = ⟨.null, 0, 0⟩ ∧
          (malloc ipcResponseSize = false ∨ malloc p.allocated = false) ∨
        malloc ipcResponseSize = true ∧ malloc p.allocated = true ∧
          ∃ q : Peer, q.bytes = p.body ∧ q.ending = p.ending ∧
            ipcRecvResponse malloc fuel p = match payloadLoop p.announced fuel q with
              | .running t => ⟨.running, t.buffer.length, p.allocated⟩
              | .abort t => ⟨.abort, t.buffer.length, p.allocated⟩
              | .complete t => ⟨.response ⟨p.announced,
                  headKind ipcMagic (p.bytes.take ipcHeaderSize), t.buffer⟩,
                  p.announced + 1, p.allocated⟩) := by
  have hgives : ∀ k : Nat, 0 < k → decide ((k : Int) ≤ 0) = false := fun k hk =>
    decide_eq_false (by omega)
  have hend : ∀ e : PeerEnd, decide (e.received ≤ 0) = true := by
    intro e
    cases e <;> rfl
  obtain ⟨s, hrun, hle, hbuffer, hrest, hending⟩ | ⟨s, hrun, hlt, -⟩ | ⟨s, hrun, -, hfuel⟩ :=
    @recvLoop_cases (fun received => decide (received ≤ 0)) hgives ipcHeaderSize p fuel
  · refine Or.inr (Or.inr ⟨hle, ?_⟩)
    rw [ipcRecvResponse, hrun]
    dsimp only
    rw [hbuffer]
    by_cases hsmall : malloc ipcResponseSize = false
    · rw [if_pos hsmall]
      exact Or.inl ⟨rfl, Or.inl hsmall⟩
    rw [if_neg hsmall]
    by_cases hlarge : malloc p.allocated = false
    · refine Or.inl ⟨?_, Or.inr hlarge⟩
      rw [if_pos (show malloc ((headLength ipcMagic (p.bytes.take ipcHeaderSize) + 1) % 2 ^ 32)
        = false from hlarge)]
    · refine Or.inr ⟨by simpa using hsmall, by simpa using hlarge, s.peer, hrest, hending, ?_⟩
      rw [if_neg (show ¬ malloc ((headLength ipcMagic (p.bytes.take ipcHeaderSize) + 1) % 2 ^ 32)
        = false from hlarge)]
      rfl
  · refine Or.inr (Or.inl ⟨?_, hlt⟩)
    rw [ipcRecvResponse, hrun]
  · refine Or.inl ⟨?_, ?_⟩
    · rw [ipcRecvResponse, hrun]
    · -- the header loop gives up at any end
      by_contra hgt
      have hgoes := (hfuel (not_le.1 hgt)).2.2
      rw [hend] at hgoes
      exact absurd hgoes Bool.noConfusion

/-- **The payload loop** ends with the payload, with an error, or turns on at a close. -/
theorem payloadLoop_cases (size fuel : Nat) (q : Peer) :
    (∃ t, payloadLoop size fuel q = .complete t ∧ size ≤ q.bytes.length ∧
      t.buffer = q.bytes.take size) ∨
    (∃ t, payloadLoop size fuel q = .abort t ∧ q.bytes.length < size ∧ t.buffer = q.bytes ∧
      q.ending = .error) ∨
    ∃ t, payloadLoop size fuel q = .running t ∧ t.buffer.length ≤ min size q.bytes.length ∧
      (q.bytes.length < fuel → q.bytes.length < size ∧ t.buffer = q.bytes ∧
        q.ending = .closed) := by
  have hgives : ∀ k : Nat, 0 < k → decide ((k : Int) < 0) = false := fun k hk =>
    decide_eq_false (by omega)
  have herror : ∀ e : PeerEnd, decide (e.received < 0) = true ↔ e = .error := by
    intro e
    cases e <;> decide
  obtain ⟨t, hrun, hle, hbuffer, -⟩ | ⟨t, hrun, hlt, hbuffer, hup⟩ | ⟨t, hrun, hsize, hfuel⟩ :=
    @recvLoop_cases (fun received => decide (received < 0)) hgives size q fuel
  · exact Or.inl ⟨t, hrun, hle, hbuffer⟩
  · exact Or.inr (Or.inl ⟨t, hrun, hlt, hbuffer, (herror _).1 hup⟩)
  · refine Or.inr (Or.inr ⟨t, hrun, hsize, fun hf => ?_⟩)
    obtain ⟨hlt, hbuffer, hgoes⟩ := hfuel hf
    refine ⟨hlt, hbuffer, ?_⟩
    cases hend : q.ending with
    | closed => rfl
    | error =>
        rw [(herror _).2 hend] at hgoes
        exact absurd hgoes Bool.noConfusion

/-- A payload that is cut off by a close keeps the loop turning. -/
theorem running_of_closed (hsize : p.body.length < p.announced) (hending : p.ending = .closed)
    (hhead : ipcHeaderSize ≤ p.bytes.length) (hsmall : malloc ipcResponseSize = true)
    (hlarge : malloc p.allocated = true) (fuel : Nat) :
    (ipcRecvResponse malloc fuel p).result = .running := by
  obtain ⟨hrun, -⟩ | ⟨-, hlt⟩ | ⟨-, ⟨-, hnull⟩ | ⟨-, -, q, hbytes, hend, hrun⟩⟩ :=
    ipcRecvResponse_cases malloc fuel p
  · rw [hrun]
  · exact absurd hhead (not_le.2 hlt)
  · rw [hsmall, hlarge] at hnull
    exact absurd hnull (by decide)
  · rw [hrun]
    obtain ⟨t, -, hle, -⟩ | ⟨t, -, -, -, herror⟩ | ⟨t, hloop, -⟩ :=
      payloadLoop_cases p.announced fuel q
    · rw [hbytes] at hle
      exact absurd hle (not_le.2 hsize)
    · rw [hend, hending] at herror
      exact PeerEnd.noConfusion herror
    · rw [hloop]

/-- The call at a number of turns that is more than there are bytes does not run any more, where
the payload is complete or cut off by an error. -/
theorem not_running (hok : p.announced ≤ p.body.length ∨ p.ending = .error) :
    (ipcRecvResponse malloc (p.bytes.length + 1) p).result ≠ .running := by
  obtain ⟨-, hle⟩ | ⟨hrun, -⟩ | ⟨-, ⟨hrun, -⟩ | ⟨-, -, q, hbytes, hend, hrun⟩⟩ :=
    ipcRecvResponse_cases malloc (p.bytes.length + 1) p
  · exact absurd hle (by omega)
  · rw [hrun]
    exact ResponseResult.noConfusion
  · rw [hrun]
    exact ResponseResult.noConfusion
  · rw [hrun]
    obtain ⟨t, hloop, -⟩ | ⟨t, hloop, -⟩ | ⟨t, -, -, hfuel⟩ :=
      payloadLoop_cases p.announced (p.bytes.length + 1) q
    · rw [hloop]
      exact ResponseResult.noConfusion
    · rw [hloop]
      exact ResponseResult.noConfusion
    · have hbody : p.body.length ≤ p.bytes.length := by
        rw [Peer.body, List.length_drop]
        exact Nat.sub_le _ _
      obtain ⟨hlt, -, hclosed⟩ := hfuel (by rw [hbytes]; omega)
      rw [hbytes] at hlt
      rw [hend] at hclosed
      rcases hok with hle | herror
      · exact absurd hle (not_le.2 hlt)
      · rw [herror] at hclosed
        exact absurd hclosed PeerEnd.noConfusion

/-- A response carries the bytes after the header. -/
theorem payload_eq {r : IpcResponse}
    (hresult : (ipcRecvResponse malloc fuel p).result = .response r) :
    r.payload.length = r.size ∧ r.payload = p.body.take r.size := by
  obtain ⟨hrun, -⟩ | ⟨hrun, -⟩ | ⟨-, ⟨hrun, -⟩ | ⟨-, -, q, hbytes, hend, hrun⟩⟩ :=
    ipcRecvResponse_cases malloc fuel p
  · rw [hrun] at hresult
    exact ResponseResult.noConfusion hresult
  · rw [hrun] at hresult
    exact ResponseResult.noConfusion hresult
  · rw [hrun] at hresult
    exact ResponseResult.noConfusion hresult
  · rw [hrun] at hresult
    obtain ⟨t, hloop, hle, hbuffer⟩ | ⟨t, hloop, -⟩ | ⟨t, hloop, -⟩ :=
      payloadLoop_cases p.announced fuel q
    · rw [hloop] at hresult
      injection hresult with hr
      rw [← hr, hbuffer, hbytes]
      refine ⟨?_, rfl⟩
      rw [List.length_take, ← hbytes]
      exact Nat.min_eq_left hle
    · rw [hloop] at hresult
      exact ResponseResult.noConfusion hresult
    · rw [hloop] at hresult
      exact ResponseResult.noConfusion hresult

/-- Where the size of the memory fits in 32 bits, a call stays within it. -/
theorem written_le (hfits : p.announced + 1 < 2 ^ 32) (fuel : Nat) :
    (ipcRecvResponse malloc fuel p).written ≤ (ipcRecvResponse malloc fuel p).allocated := by
  have hallocated : p.allocated = p.announced + 1 := Nat.mod_eq_of_lt hfits
  obtain ⟨hrun, -⟩ | ⟨hrun, -⟩ | ⟨-, ⟨hrun, -⟩ | ⟨-, -, q, -, -, hrun⟩⟩ :=
    ipcRecvResponse_cases malloc fuel p
  · rw [hrun]
  · rw [hrun]
  · rw [hrun]
  · rw [hrun, hallocated]
    obtain ⟨t, hloop, -⟩ | ⟨t, hloop, hlt, hbuffer, -⟩ | ⟨t, hloop, hle, -⟩ :=
      payloadLoop_cases p.announced fuel q
    · rw [hloop]
    · rw [hloop]
      show t.buffer.length ≤ p.announced + 1
      rw [hbuffer]
      omega
    · rw [hloop]
      exact Nat.le_succ_of_le (hle.trans (min_le_left _ _))

/-- Where it has wrapped, the first byte after the header is written beyond it. -/
theorem written_of_wrapped (hwraps : p.announced + 1 = 2 ^ 32) (hbody : p.body ≠ [])
    (hhead : ipcHeaderSize ≤ p.bytes.length) (hsmall : malloc ipcResponseSize = true)
    (hlarge : malloc p.allocated = true) :
    (ipcRecvResponse malloc (p.bytes.length + 1) p).allocated <
      (ipcRecvResponse malloc (p.bytes.length + 1) p).written := by
  have hallocated : p.allocated = 0 := by rw [Peer.allocated, hwraps, Nat.mod_self]
  obtain ⟨-, hle⟩ | ⟨-, hlt⟩ | ⟨-, ⟨-, hnull⟩ | ⟨-, -, q, hbytes, -, hrun⟩⟩ :=
    ipcRecvResponse_cases malloc (p.bytes.length + 1) p
  · exact absurd hle (by omega)
  · exact absurd hhead (not_le.2 hlt)
  · rw [hsmall, hlarge] at hnull
    exact absurd hnull (by decide)
  · have hpos : 0 < q.bytes.length := by
      rw [hbytes]
      exact List.length_pos_iff.2 hbody
    rw [hrun, hallocated]
    obtain ⟨t, hloop, -⟩ | ⟨t, hloop, -, hbuffer, -⟩ | ⟨t, hloop, -, hfuel⟩ :=
      payloadLoop_cases p.announced (p.bytes.length + 1) q
    · rw [hloop]
      exact Nat.succ_pos _
    · rw [hloop]
      show 0 < t.buffer.length
      rw [hbuffer]
      exact hpos
    · rw [hloop]
      have hlen : q.bytes.length < p.bytes.length + 1 := by
        rw [hbytes, Peer.body, List.length_drop]
        omega
      show 0 < t.buffer.length
      rw [(hfuel hlen).2.1]
      exact hpos

/-- A call that does not come to the payload loop ends, and writes no payload. -/
theorem ends_of_no_payload (h : p.bytes.length < ipcHeaderSize ∨ malloc ipcResponseSize = false ∨
    malloc p.allocated = false) :
    (ipcRecvResponse malloc (p.bytes.length + 1) p).result ≠ .running ∧
      ∀ fuel, (ipcRecvResponse malloc fuel p).written ≤
        (ipcRecvResponse malloc fuel p).allocated := by
  have hnot : ipcHeaderSize ≤ p.bytes.length → malloc ipcResponseSize = true →
      malloc p.allocated = true → False := by
    intro hhead hsmall hlarge
    rcases h with hlt | hfails | hfails
    · exact absurd hhead (not_le.2 hlt)
    · rw [hsmall] at hfails
      exact Bool.noConfusion hfails
    · rw [hlarge] at hfails
      exact Bool.noConfusion hfails
  constructor
  · obtain ⟨-, hle⟩ | ⟨hrun, -⟩ | ⟨hhead, ⟨hrun, -⟩ | ⟨hsmall, hlarge, -⟩⟩ :=
      ipcRecvResponse_cases malloc (p.bytes.length + 1) p
    · exact absurd hle (by omega)
    · rw [hrun]
      exact ResponseResult.noConfusion
    · rw [hrun]
      exact ResponseResult.noConfusion
    · exact absurd (hnot hhead hsmall hlarge) not_false
  · intro fuel
    obtain ⟨hrun, -⟩ | ⟨hrun, -⟩ | ⟨hhead, ⟨hrun, -⟩ | ⟨hsmall, hlarge, -⟩⟩ :=
      ipcRecvResponse_cases malloc fuel p
    · rw [hrun]
    · rw [hrun]
    · rw [hrun]
    · exact absurd (hnot hhead hsmall hlarge) not_false

/-- Nothing is written where nothing follows the header of a payload. -/
theorem written_of_no_body (hbody : p.body = []) (hpos : 0 < p.announced) (fuel : Nat) :
    (ipcRecvResponse malloc fuel p).written = 0 := by
  obtain ⟨hrun, -⟩ | ⟨hrun, -⟩ | ⟨-, ⟨hrun, -⟩ | ⟨-, -, q, hbytes, -, hrun⟩⟩ :=
    ipcRecvResponse_cases malloc fuel p
  · rw [hrun]
  · rw [hrun]
  · rw [hrun]
  · rw [hbody] at hbytes
    rw [hrun]
    obtain ⟨t, -, hle, -⟩ | ⟨t, hloop, -, hbuffer, -⟩ | ⟨t, hloop, hle, -⟩ :=
      payloadLoop_cases p.announced fuel q
    · rw [hbytes] at hle
      exact absurd hle (not_le.2 hpos)
    · rw [hloop]
      show t.buffer.length = 0
      rw [hbuffer, hbytes]
      rfl
    · rw [hbytes] at hle
      rw [hloop]
      exact Nat.le_zero.1 (hle.trans (min_le_right _ _))

end Response

/-- **A reply is received**: a call terminates, gives the payload that was announced and stays
within the memory it allocated, exactly where the peer does not close the connection inside a
payload, and does not announce the one size whose memory wraps to zero. -/
theorem ipcRecvResponse_receives_iff (malloc : Nat → Bool) (p : Peer) :
    Receives malloc p ↔ Receivable malloc p := by
  constructor
  · rintro ⟨⟨fuel, hends⟩, hwithin, -⟩
    by_contra hnot
    unfold Receivable at hnot
    push Not at hnot
    obtain ⟨hhead, hsmall, hlarge, hfits, hwraps⟩ := hnot
    replace hsmall : malloc ipcResponseSize = true := by simpa using hsmall
    replace hlarge : malloc p.allocated = true := by simpa using hlarge
    have hlt : p.announced < 2 ^ 32 := headLength_lt _ _
    have hclosed : p.ending ≠ .error → p.ending = .closed := by
      cases p.ending
      · exact fun _ => rfl
      · exact fun h => absurd rfl h
    by_cases hsize : p.announced + 1 = 2 ^ 32
    · by_cases hbody : p.body = []
      · refine hends (running_of_closed ?_ (hclosed (hwraps hsize hbody)) hhead hsmall hlarge fuel)
        rw [hbody]
        show 0 < p.announced
        omega
      · exact absurd (hwithin _)
          (not_le.2 (written_of_wrapped hsize hbody hhead hsmall hlarge))
    · obtain ⟨hshort, hend⟩ := hfits (by omega)
      exact hends (running_of_closed hshort (hclosed hend) hhead hsmall hlarge fuel)
  · intro h
    suffices hok : (ipcRecvResponse malloc (p.bytes.length + 1) p).result ≠ .running ∧
        ∀ fuel, (ipcRecvResponse malloc fuel p).written ≤
          (ipcRecvResponse malloc fuel p).allocated from
      ⟨⟨_, hok.1⟩, hok.2, fun fuel r => payload_eq⟩
    rcases h with hno | hno | hno | ⟨hfits, hsize⟩ | ⟨hwraps, hbody, herror⟩
    · exact ends_of_no_payload (Or.inl hno)
    · exact ends_of_no_payload (Or.inr (Or.inl hno))
    · exact ends_of_no_payload (Or.inr (Or.inr hno))
    · exact ⟨not_running hsize, written_le hfits⟩
    · refine ⟨not_running (Or.inr herror), fun fuel => ?_⟩
      rw [written_of_no_body hbody (by omega) fuel]
      exact Nat.zero_le _

/-- A peer that announces a payload of one byte and closes the connection before it. -/
def closingPeer : Peer where
  chunks := [ipcMagic ++ [1, 0, 0, 0, 0, 0, 0, 0]]
  ending := .closed
  nonempty := by decide

/-- The call never ends: `recv` gives `0` each time, which the payload loop takes for progress. -/
theorem ipcRecvResponse_hangs : ¬ Receives (fun _ => true) closingPeer := by
  rintro ⟨⟨fuel, hends⟩, -⟩
  exact hends (running_of_closed (by decide) rfl (by decide) rfl rfl fuel)

end Swirl
