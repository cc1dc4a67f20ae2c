import Mathlib.Data.List.Basic

/-!
# Stream sockets

A connected stream socket is described by everything the other side will ever do on it: the
elements it delivers before it closes, how each transfer is cut, and which transfers fail.
`gather` is the loop that reads a counted block through a bounded buffer; it is starved when the
peer closes before the block is complete.
-/

namespace Mrhc

/-- The result of one transfer: everything asked for, at most `k` elements of it, or an error. -/
inductive Transfer where
  | whole
  | atMost (k : Nat)
  | error
deriving DecidableEq, Repr

/-- The same transfer when its peer offers no more than `cap` elements. -/
def Transfer.capped (cap : Nat) : Transfer → Transfer
  | .whole => .atMost cap
  | .atMost k => .atMost (min k cap)
  | .error => .error

/-- A socket and the whole behaviour of its peer. A schedule that has run out means that all
further transfers are whole, and an empty `input` that the peer has closed. -/
structure Socket (α : Type) where
  connects : Bool
  input : List α
  recvs : List Transfer
  sends : List Transfer
  written : List (List α)
deriving DecidableEq, Repr

namespace Socket

variable {α : Type}

/-- The number of elements a transfer of `n` elements may move, `none` on an error. -/
def allowance (n : Nat) : List Transfer → Option Nat
  | [] => some n
  | .whole :: _ => some n
  | .atMost k :: _ => some (min k n)
  | .error :: _ => none

/-- `recv` for `n` elements. Zero elements come back once the peer has closed. -/
def recv (c : Socket α) (n : Nat) : Option (List α) × Socket α :=
  match allowance n c.recvs with
  | some k => (some (c.input.take k), { c with input := c.input.drop k, recvs := c.recvs.tail })
  | none => (none, { c with recvs := c.recvs.tail })

/-- `send` of a message: whether it did not fail, and what was written of it. -/
def send (c : Socket α) (message : List α) : Bool × Socket α :=
  match allowance message.length c.sends with
  | some k => (true, { c with sends := c.sends.tail, written := c.written ++ [message.take k] })
  | none => (false, { c with sends := c.sends.tail })

/-- A socket whose peer delivers this input in whole transfers and closes. -/
def delivering (input : List α) : Socket α := ⟨true, input, [], [], []⟩

/-- The same socket when its peer's scheduled transfers are cut to `cap` elements. -/
def capped (cap : Nat) (c : Socket α) : Socket α :=
  { c with recvs := c.recvs.map (Transfer.capped cap) }

/-- The receiving side of a socket. -/
def stream (c : Socket α) : Socket α := ⟨true, c.input, c.recvs, [], []⟩

/-- The results of receives that ask for these numbers of elements, `none` when one fails. -/
def receives : List Nat → Socket α → Option (List (List α) × Socket α)
  | [], c => some ([], c)
  | n :: ns, c =>
    match c.recv n with
    | (none, _) => none
    | (some buf, c) => (receives ns c).map fun (bufs, c) => (buf :: bufs, c)

/-- No send fails. -/
def NoSendError (c : Socket α) : Prop := Transfer.error ∉ c.sends

instance (c : Socket α) : Decidable c.NoSendError := inferInstanceAs (Decidable (¬ _))

/-- No receive fails. -/
def NoRecvError (c : Socket α) : Prop := Transfer.error ∉ c.recvs

instance (c : Socket α) : Decidable c.NoRecvError := inferInstanceAs (Decidable (¬ _))

/-- Each send writes its whole message or fails and writes nothing. -/
def WholeSends (c : Socket α) : Prop := ∀ t ∈ c.sends, t = .whole ∨ t = .error

instance (c : Socket α) : Decidable c.WholeSends :=
  inferInstanceAs (Decidable (∀ t ∈ c.sends, _))

theorem allowance_le {n k : Nat} {ts : List Transfer} (h : allowance n ts = some k) : k ≤ n := by
  cases ts with
  | nil => simp only [allowance, Option.some.injEq] at h; omega
  | cons t ts =>
    cases t <;> simp only [allowance, Option.some.injEq, reduceCtorEq] at h <;> omega

theorem allowance_isSome {n : Nat} {ts : List Transfer} (h : Transfer.error ∉ ts) :
    ∃ k, allowance n ts = some k := by
  cases ts with
  | nil => exact ⟨n, rfl⟩
  | cons t ts =>
    cases t with
    | whole => exact ⟨n, rfl⟩
    | atMost k => exact ⟨min k n, rfl⟩
    | error => simp at h

/-- All that one `recv` can do: fail, or move a prefix of the input to the caller. -/
theorem recv_cases (c : Socket α) (n : Nat) :
    c.recv n = (none, { c with recvs := c.recvs.tail }) ∨
      ∃ k, k ≤ n ∧ c.recv n =
        (some (c.input.take k), { c with input := c.input.drop k, recvs := c.recvs.tail }) := by
  cases hk : allowance n c.recvs with
  | none => exact Or.inl (by simp [recv, hk])
  | some k => exact Or.inr ⟨k, allowance_le hk, by simp [recv, hk]⟩

theorem recv_length_le {c c' : Socket α} {n : Nat} {buf : List α}
    (h : c.recv n = (some buf, c')) : buf.length ≤ n := by
  rcases c.recv_cases n with hr | ⟨k, hk, hr⟩
  · simp [hr] at h
  · simp only [hr, Prod.mk.injEq, Option.some.injEq] at h
    rw [← h.1, List.length_take]
    omega

theorem noRecvError_tail {c : Socket α} (h : c.NoRecvError) : Transfer.error ∉ c.recvs.tail :=
  fun hm => h (List.mem_of_mem_tail hm)

/-- Without receive errors there is always a result, and none of the later ones fails. -/
theorem recv_of_noError {c : Socket α} (h : c.NoRecvError) (n : Nat) :
    ∃ buf c', c.recv n = (some buf, c') ∧ buf.length ≤ n ∧ c'.NoRecvError := by
  obtain ⟨k, hk⟩ := allowance_isSome (n := n) h
  refine ⟨c.input.take k, { c with input := c.input.drop k, recvs := c.recvs.tail },
    by simp only [recv, hk], ?_, noRecvError_tail h⟩
  have hle := allowance_le hk
  rw [List.length_take]
  omega

theorem recv_unscheduled {c : Socket α} (h : c.recvs = []) (n : Nat) :
    c.recv n = (some (c.input.take n), { c with input := c.input.drop n }) := by
  cases c
  simp only at h
  subst h
  rfl

theorem recv_of_same {c c' d : Socket α} {n : Nat} {buf : List α}
    (h : c.recv n = (some buf, c')) (hi : d.input = c.input) (hr : d.recvs = c.recvs) :
    d.recv n = (some buf, { d with input := c'.input, recvs := c'.recvs }) := by
  rw [recv] at h ⊢
  rw [hi, hr]
  cases hk : allowance n c.recvs with
  | none => simp [hk] at h
  | some k =>
    simp only [hk, Prod.mk.injEq, Option.some.injEq] at h ⊢
    obtain ⟨rfl, rfl⟩ := h
    simp

/-- A `recv` that asks for no more than `cap` elements does not notice the cut. -/
theorem recv_capped {cap n : Nat} (hn : n ≤ cap) (c : Socket α) :
    (c.capped cap).recv n = ((c.recv n).1, (c.recv n).2.capped cap) := by
  have hallow : allowance n (c.capped cap).recvs = allowance n c.recvs := by
    rw [capped]
    rcases c.recvs with _ | ⟨_ | k | _, ts⟩
    · rfl
    · exact congrArg some (Nat.min_eq_right hn)
    · exact congrArg some (by omega)
    · rfl
  rw [recv, recv, hallow]
  cases allowance n c.recvs <;> simp [capped]

/-- All that one `send` can do: it leaves what is to be received alone. -/
theorem send_cases (c : Socket α) (message : List α) :
    c.send message = (false, { c with sends := c.sends.tail }) ∨
      ∃ k, k ≤ message.length ∧ c.send message =
        (true, { c with sends := c.sends.tail, written := c.written ++ [message.take k] }) := by
  cases hk : allowance message.length c.sends with
  | none => exact Or.inl (by simp [send, hk])
  | some k => exact Or.inr ⟨k, allowance_le hk, by simp [send, hk]⟩

theorem send_of_whole {c : Socket α} (h : c.WholeSends) (message : List α) :
    (c.send message = (false, { c with sends := c.sends.tail }) ∨
      c.send message =
        (true, { c with sends := c.sends.tail, written := c.written ++ [message] })) ∧
      (c.send message).2.WholeSends := by
  have htail : ∀ t ∈ c.sends.tail, t = .whole ∨ t = .error :=
    fun t ht => h t (List.mem_of_mem_tail ht)
  rcases hs : c.sends with _ | ⟨t, ts⟩
  · refine ⟨Or.inr ?_, ?_⟩ <;> simp [send, allowance, hs, WholeSends]
  · rw [hs] at htail
    cases h t (by rw [hs]; exact List.mem_cons_self) with
    | inl hwhole =>
      subst hwhole
      exact ⟨Or.inr (by simp [send, allowance, hs]),
        by simpa [send, allowance, hs, WholeSends] using htail⟩
    | inr herror =>
      subst herror
      exact ⟨Or.inl (by simp [send, allowance, hs]),
        by simpa [send, allowance, hs, WholeSends] using htail⟩

@[simp] theorem recv_sends (c : Socket α) (n : Nat) : (c.recv n).2.sends = c.sends := by
  rcases c.recv_cases n with h | ⟨k, -, h⟩ <;> rw [h]

@[simp] theorem recv_written (c : Socket α) (n : Nat) : (c.recv n).2.written = c.written := by
  rcases c.recv_cases n with h | ⟨k, -, h⟩ <;> rw [h]

@[simp] theorem send_recvs (c : Socket α) (message : List α) :
    (c.send message).2.recvs = c.recvs := by
  rcases c.send_cases message with h | ⟨k, _, h⟩ <;> rw [h]

@[simp] theorem send_input (c : Socket α) (message : List α) :
    (c.send message).2.input = c.input := by
  rcases c.send_cases message with h | ⟨k, _, h⟩ <;> rw [h]

theorem send_congr {c d : Socket α} (h : d.sends = c.sends) (message : List α) :
    (d.send message).1 = (c.send message).1 ∧
      (d.send message).2.sends = (c.send message).2.sends := by
  rw [send, send, h]
  cases allowance message.length c.sends with
  | none => exact ⟨rfl, rfl⟩
  | some k => exact ⟨rfl, rfl⟩

theorem recv_input_suffix (c : Socket α) (n : Nat) : (c.recv n).2.input <:+ c.input := by
  rcases c.recv_cases n with h | ⟨k, -, h⟩
  · exact ⟨[], by simp [h]⟩
  · exact ⟨c.input.take k, by simp [h]⟩

theorem recv_recvs_nil {c : Socket α} (h : c.recvs = []) (n : Nat) : (c.recv n).2.recvs = [] := by
  rw [recv_unscheduled h]
  exact h

/-- A `send` does not depend on what is to be received. -/
theorem send_of_input (c : Socket α) (input message : List α) :
    send { c with input := input } message =
      ((c.send message).1, { (c.send message).2 with input := input }) := by
  cases hk : allowance message.length c.sends <;> simp [send, hk]

@[simp] theorem send_stream (c : Socket α) (message : List α) :
    (c.send message).2.stream = c.stream := by
  rcases c.send_cases message with h | ⟨k, _, h⟩ <;> rw [h] <;> rfl

theorem send_of_noError {c : Socket α} (h : c.NoSendError) (message : List α) :
    (c.send message).1 = true ∧ (c.send message).2.NoSendError := by
  obtain ⟨k, hk⟩ := allowance_isSome (n := message.length) h
  have htail : Transfer.error ∉ c.sends.tail := fun hm => h (List.mem_of_mem_tail hm)
  simp only [send, hk]
  exact ⟨trivial, htail⟩

theorem recv_noSendError {c : Socket α} (h : c.NoSendError) (n : Nat) :
    (c.recv n).2.NoSendError := by
  rcases c.recv_cases n with hr | ⟨k, _, hr⟩ <;> rw [hr] <;> exact h

theorem recv_stream (c : Socket α) (n : Nat) :
    c.stream.recv n = ((c.recv n).1, (c.recv n).2.stream) := by
  cases hk : allowance n c.recvs with
  | none => simp [recv, stream, hk]
  | some k => simp [recv, stream, hk]

theorem receives_cons {n : Nat} {ns : List Nat} {c c' : Socket α} {buf : List α}
    (h : c.recv n = (some buf, c')) :
    receives (n :: ns) c = (receives ns c').map fun (bufs, d) => (buf :: bufs, d) := by
  simp only [receives, h]

/-- Receives that succeed begin with one that does. -/
theorem of_receives_cons {n : Nat} {ns : List Nat} {c c' : Socket α} {bufs : List (List α)}
    (h : receives (n :: ns) c = some (bufs, c')) :
    ∃ k rest, bufs = c.input.take k :: rest ∧
      receives ns { c with input := c.input.drop k, recvs := c.recvs.tail } = some (rest, c') := by
  rcases c.recv_cases n with hr | ⟨k, _, hr⟩
  · simp [receives, hr] at h
  · rw [receives_cons hr] at h
    obtain ⟨⟨rest, d⟩, hrest, heq⟩ := Option.map_eq_some_iff.mp h
    rw [Prod.mk.injEq] at heq
    obtain ⟨hbufs, rfl⟩ := heq
    exact ⟨k, rest, hbufs.symm, hrest⟩

theorem receives_append (ns ms : List Nat) (c : Socket α) :
    receives (ns ++ ms) c =
      (receives ns c).bind fun (bufs, d) =>
        (receives ms d).map fun (rest, e) => (bufs ++ rest, e) := by
  induction ns generalizing c with
  | nil => cases h : receives ms c <;> simp [receives, h]
  | cons n ns ih =>
    rcases c.recv_cases n with hr | ⟨k, _, hr⟩
    · simp [receives, hr]
    · rw [List.cons_append, receives_cons hr, receives_cons hr, ih]
      cases receives ns { c with input := c.input.drop k, recvs := c.recvs.tail } with
      | none => rfl
      | some result => simp [Function.comp_def]

theorem receives_length {ns : List Nat} {c c' : Socket α} {bufs : List (List α)}
    (h : receives ns c = some (bufs, c')) : bufs.length = ns.length := by
  induction ns generalizing c bufs with
  | nil =>
    simp only [receives, Option.some.injEq, Prod.mk.injEq] at h
    simp [← h.1]
  | cons n ns ih =>
    obtain ⟨k, rest, rfl, hrest⟩ := of_receives_cons h
    rw [List.length_cons, List.length_cons, ih hrest]

/-- Receives move a prefix of the input to their results. -/
theorem receives_input {ns : List Nat} {c c' : Socket α} {bufs : List (List α)}
    (h : receives ns c = some (bufs, c')) : c.input = bufs.flatten ++ c'.input := by
  induction ns generalizing c bufs with
  | nil =>
    simp only [receives, Option.some.injEq, Prod.mk.injEq] at h
    obtain ⟨rfl, rfl⟩ := h
    rfl
  | cons n ns ih =>
    obtain ⟨k, rest, rfl, hrest⟩ := of_receives_cons h
    have htail : c.input.drop k = rest.flatten ++ c'.input := ih hrest
    rw [List.flatten_cons, List.append_assoc, ← htail, List.take_append_drop]

/-- Whether this many messages pass one after another under such a schedule, and what is left of it
after them or the first failure. -/
def sendsThrough : Nat → List Transfer → Bool × List Transfer
  | 0, ts => (true, ts)
  | n + 1, ts => if ts.head? = some .error then (false, ts.tail) else sendsThrough n ts.tail

/-- A `send` fails exactly when the schedule says so. -/
theorem send_schedule (c : Socket α) (message : List α) :
    (c.send message).1 = !decide (c.sends.head? = some .error) ∧
      (c.send message).2.sends = c.sends.tail := by
  rw [send]
  rcases c.sends with _ | ⟨_ | k | _, ts⟩
  · exact ⟨rfl, rfl⟩
  · exact ⟨rfl, rfl⟩
  · exact ⟨rfl, rfl⟩
  · exact ⟨rfl, rfl⟩

theorem send_unscheduled {c : Socket α} (h : c.sends = []) (message : List α) :
    c.send message = (true, { c with written := c.written ++ [message] }) := by
  cases c
  simp only at h
  subst h
  simp [send, allowance]

end Socket

/-- How a counted read ends: with every element, on an error, or waiting for elements that a
closed peer never sends. -/
inductive Ending where
  | full
  | failed
  | starved
deriving DecidableEq, Repr

/-- The pieces that a counted read received, how it ended and the socket afterwards. -/
structure Gathered (α : Type) where
  chunks : List (List α)
  ending : Ending
  socket : Socket α

namespace Socket

variable {α : Type}

/-- Read `n` elements, asking for at most `cap` in each call. -/
def gather (cap : Nat) : Nat → Nat → Socket α → Gathered α
  | 0, _, c => ⟨[], .starved, c⟩
  | fuel + 1, n, c =>
    if n = 0 then ⟨[], .full, c⟩
    else match c.recv (min n cap) with
      | (none, c') => ⟨[], .failed, c'⟩
      | (some chunk, c') =>
        let rest := gather cap fuel (n - chunk.length) c'
        { rest with chunks := chunk :: rest.chunks }

/-- Enough fuel for a counted read that ends at all: every call uses up a cut of the schedule or,
once the schedule has run out, at least one element. -/
def fuelFor (c : Socket α) (n : Nat) : Nat := n + c.recvs.length + 1

@[simp] theorem gather_zero (cap fuel : Nat) (c : Socket α) :
    gather cap (fuel + 1) 0 c = ⟨[], .full, c⟩ := by simp [gather]

theorem gather_failed {cap fuel n : Nat} {c c' : Socket α} (hn : n ≠ 0)
    (h : c.recv (min n cap) = (none, c')) :
    gather cap (fuel + 1) n c = ⟨[], .failed, c'⟩ := by simp [gather, hn, h]

theorem gather_chunk {cap fuel n : Nat} {c c' : Socket α} {chunk : List α} (hn : n ≠ 0)
    (h : c.recv (min n cap) = (some chunk, c')) :
    gather cap (fuel + 1) n c =
      { gather cap fuel (n - chunk.length) c' with
        chunks := chunk :: (gather cap fuel (n - chunk.length) c').chunks } := by
  simp [gather, hn, h]

/-- A closed peer with no cut left in the schedule starves every non-empty read. -/
theorem gather_closed (cap fuel n : Nat) (c : Socket α) (hn : n ≠ 0) (hi : c.input = [])
    (hr : c.recvs = []) : (gather cap fuel n c).ending = .starved := by
  induction fuel with
  | zero => rfl
  | succ fuel ih =>
    have hc : c.recv (min n cap) = (some [], c) := by
      rw [recv_unscheduled hr]
      cases c
      simp_all
    rw [gather_chunk hn hc]
    exact ih

/-- A counted read only moves a prefix of the input to its chunks. -/
theorem gather_input (cap fuel n : Nat) (c : Socket α) :
    (gather cap fuel n c).chunks.flatten ++ (gather cap fuel n c).socket.input = c.input := by
  induction fuel generalizing n c with
  | zero => rfl
  | succ fuel ih =>
    by_cases hn : n = 0
    · subst n; simp
    · rcases c.recv_cases (min n cap) with h | ⟨k, _, h⟩
      · simp [gather_failed hn h]
      · rw [gather_chunk hn h]
        simp only [List.flatten_cons, List.append_assoc]
        rw [ih]
        exact List.take_append_drop k c.input

/-- A read that ends full has moved exactly the number of elements it was asked for. -/
theorem gather_full_length {cap fuel n : Nat} {c : Socket α}
    (h : (gather cap fuel n c).ending = .full) :
    (gather cap fuel n c).chunks.flatten.length = n := by
  induction fuel generalizing n c with
  | zero => simp [gather] at h
  | succ fuel ih =>
    by_cases hn : n = 0
    · subst n; simp
    · rcases c.recv_cases (min n cap) with hr | ⟨k, hk, hr⟩
      · simp [gather_failed hn hr] at h
      · rw [gather_chunk hn hr] at h ⊢
        have ht := ih h
        simp only [List.flatten_cons, List.length_append, List.length_take] at ht ⊢
        omega

/-- Everything but the input and the schedule of receives is left alone. -/
theorem gather_frame (cap fuel n : Nat) (c : Socket α) :
    (gather cap fuel n c).socket.connects = c.connects ∧
      (gather cap fuel n c).socket.sends = c.sends ∧
      (gather cap fuel n c).socket.written = c.written := by
  induction fuel generalizing n c with
  | zero => exact ⟨rfl, rfl, rfl⟩
  | succ fuel ih =>
    by_cases hn : n = 0
    · subst n; simp
    · rcases c.recv_cases (min n cap) with h | ⟨k, _, h⟩
      · simp [gather_failed hn h]
      · rw [gather_chunk hn h]
        exact ih _ _

theorem gather_not_failed (cap fuel n : Nat) {c : Socket α} (hc : c.NoRecvError) :
    (gather cap fuel n c).ending ≠ .failed ∧ (gather cap fuel n c).socket.NoRecvError := by
  induction fuel generalizing n c with
  | zero => exact ⟨by simp [gather], hc⟩
  | succ fuel ih =>
    by_cases hn : n = 0
    · subst n; simpa using hc
    · obtain ⟨buf, c', h, _, hc'⟩ := recv_of_noError hc (min n cap)
      rw [gather_chunk hn h]
      exact ih _ hc'

/-- With enough fuel a read is starved only when the peer delivers too few elements. -/
theorem gather_starved {cap fuel n : Nat} {c : Socket α} (hcap : 0 < cap)
    (hfuel : n + c.recvs.length < fuel) (h : (gather cap fuel n c).ending = .starved) :
    c.input.length < n := by
  induction fuel generalizing n c with
  | zero => omega
  | succ fuel ih =>
    by_cases hn : n = 0
    · subst n; simp at h
    · rcases c.recv_cases (min n cap) with hr | ⟨k, hk, hr⟩
      · simp [gather_failed hn hr] at h
      · by_cases hs : c.recvs = []
        · -- a whole transfer: it moves an element or finds the peer closed
          rw [recv_unscheduled hs] at hr
          have hk' : c.input.take (min n cap) = c.input.take k := by simp_all
          by_cases hi : c.input = []
          · rw [hi]; simp only [List.length_nil]; omega
          · have hpos : 0 < c.input.length := List.length_pos_iff.mpr hi
            have hlen := congrArg List.length hk'
            simp only [List.length_take] at hlen
            rw [gather_chunk hn (by rw [recv_unscheduled hs])] at h
            have ht := ih (c := { c with input := c.input.drop (min n cap) })
              (by simp only [List.length_take, hs, List.length_nil] at hfuel ⊢; omega) h
            simp only [List.length_drop, List.length_take] at ht
            omega
        · -- a cut of the schedule is used up
          have hpos : 0 < c.recvs.length := List.length_pos_iff.mpr hs
          rw [gather_chunk hn hr] at h
          have ht := ih (c := { c with input := c.input.drop k, recvs := c.recvs.tail })
            (by simp only [List.length_take, List.length_tail] at hfuel ⊢; omega) h
          simp only [List.length_drop, List.length_take] at ht
          omega

/-- The whole outcome of a read without receive errors: full exactly when the peer delivers
enough, starved otherwise. -/
theorem gather_ending {cap fuel n : Nat} {c : Socket α} (hcap : 0 < cap) (hc : c.NoRecvError)
    (hfuel : n + c.recvs.length < fuel) :
    (gather cap fuel n c).ending = if n ≤ c.input.length then .full else .starved := by
  have hnf := (gather_not_failed cap fuel n hc).1
  cases he : (gather cap fuel n c).ending with
  | failed => exact absurd he hnf
  | starved =>
    have hlt := gather_starved hcap hfuel he
    rw [if_neg (by omega)]
  | full =>
    have hl := gather_full_length he
    have hi := congrArg List.length (gather_input cap fuel n c)
    rw [List.length_append, hl] at hi
    rw [if_pos (by omega)]

theorem gather_full_parts {cap fuel n : Nat} {c : Socket α}
    (h : (gather cap fuel n c).ending = .full) :
    (gather cap fuel n c).chunks.flatten = c.input.take n ∧
      (gather cap fuel n c).socket.input = c.input.drop n := by
  have hl := gather_full_length h
  have hi := gather_input cap fuel n c
  constructor
  · rw [← hi, List.take_left' hl]
  · rw [← hi, List.drop_left' hl]

/-- More fuel changes nothing once a read has ended. -/
theorem gather_fuel_mono {cap fuel fuel' n : Nat} {c : Socket α} (hle : fuel ≤ fuel')
    (h : (gather cap fuel n c).ending ≠ .starved) :
    gather cap fuel' n c = gather cap fuel n c := by
  induction fuel generalizing fuel' n c with
  | zero => simp [gather] at h
  | succ fuel ih =>
    obtain ⟨f, rfl⟩ : ∃ f, fuel' = f + 1 := ⟨fuel' - 1, by omega⟩
    by_cases hn : n = 0
    · subst n; simp
    · rcases c.recv_cases (min n cap) with hr | ⟨k, _, hr⟩
      · rw [gather_failed hn hr, gather_failed hn hr]
      · rw [gather_chunk hn hr] at h
        rw [gather_chunk hn hr, gather_chunk hn hr, ih (by omega) h]

/-- A read that is starved with enough fuel is starved with any: the loop never ends. -/
theorem gather_starved_forever {cap fuel n : Nat} {c : Socket α} (hcap : 0 < cap)
    (hfuel : n + c.recvs.length < fuel) (h : (gather cap fuel n c).ending = .starved)
    (fuel' : Nat) : (gather cap fuel' n c).ending = .starved := by
  induction fuel generalizing fuel' n c with
  | zero => omega
  | succ fuel ih =>
    cases fuel' with
    | zero => rfl
    | succ fuel' =>
      by_cases hn : n = 0
      · subst n; simp at h
      · rcases c.recv_cases (min n cap) with hr | ⟨k, hk, hr⟩
        · simp [gather_failed hn hr] at h
        · by_cases hclosed : c.recvs = [] ∧ c.input = []
          · exact gather_closed cap _ n c hn hclosed.2 hclosed.1
          · rw [gather_chunk hn hr] at h ⊢
            refine ih ?_ h fuel'
            by_cases hs : c.recvs = []
            · have hi : c.input ≠ [] := fun hi => hclosed ⟨hs, hi⟩
              have hpos : 0 < c.input.length := List.length_pos_iff.mpr hi
              rw [recv_unscheduled hs] at hr
              have hlen : (c.input.take (min n cap)).length = (c.input.take k).length := by
                simp_all
              simp only [List.length_take] at hlen
              simp only [List.length_take, List.length_tail, hs, List.length_nil] at hfuel ⊢
              omega
            · have hpos : 0 < c.recvs.length := List.length_pos_iff.mpr hs
              simp only [List.length_take, List.length_tail] at hfuel ⊢
              omega

/-- A way of delivering `block` in pieces that are not empty and fit a buffer of `cap`. -/
structure Cutting (block : List α) (cap : Nat) where
  pieces : List (List α)
  joined : pieces.flatten = block
  ne_nil : ∀ piece ∈ pieces, piece ≠ []
  length_le : ∀ piece ∈ pieces, piece.length ≤ cap

/-- The schedule that delivers these pieces. -/
def transfers (pieces : List (List α)) : List Transfer :=
  pieces.map fun piece => .atMost piece.length

@[simp] theorem transfers_length (pieces : List (List α)) :
    (transfers pieces).length = pieces.length := List.length_map _

theorem recv_piece (c : Socket α) (piece rest : List α) (ts : List Transfer) (n : Nat)
    (hi : c.input = piece ++ rest) (hr : c.recvs = .atMost piece.length :: ts)
    (hn : piece.length ≤ n) : c.recv n = (some piece, { c with input := rest, recvs := ts }) := by
  have hallow : allowance n c.recvs = some piece.length := by
    rw [hr]
    exact congrArg some (Nat.min_eq_left hn)
  rw [recv, hallow]
  simp [hi, hr]

theorem recv_whole (c : Socket α) (message rest : List α) (ts : List Transfer)
    (hi : c.input = message ++ rest) (hr : c.recvs = .whole :: ts) :
    c.recv message.length = (some message, { c with input := rest, recvs := ts }) := by
  have hallow : allowance message.length c.recvs = some message.length := by rw [hr]; rfl
  rw [recv, hallow]
  simp [hi, hr]

/-- Receives that ask for enough return the pieces that are delivered. -/
theorem receives_transfers {asks : List Nat} {pieces : List (List α)}
    (h : List.Forall₂ (fun n piece => piece.length ≤ n) asks pieces) (rest : List α)
    (ts : List Transfer) (c : Socket α) (hi : c.input = pieces.flatten ++ rest)
    (hr : c.recvs = transfers pieces ++ ts) :
    receives asks c = some (pieces, { c with input := rest, recvs := ts }) := by
  induction h generalizing c with
  | nil =>
    cases c
    simp only [List.flatten_nil, List.nil_append, transfers, List.map_nil] at hi hr
    subst hi hr
    rfl
  | @cons n piece asks pieces hn _ ih =>
    have hrecv := recv_piece c piece (pieces.flatten ++ rest) (transfers pieces ++ ts) n
      (by rw [hi, List.flatten_cons, List.append_assoc]) hr hn
    rw [receives_cons hrecv, ih _ rfl rfl]
    rfl

private theorem gather_pieces {cap : Nat} (pieces : List (List α)) (rest : List α)
    (ts : List Transfer) (c : Socket α) (hne : ∀ piece ∈ pieces, piece ≠ [])
    (hle : ∀ piece ∈ pieces, piece.length ≤ cap) (hi : c.input = pieces.flatten ++ rest)
    (hr : c.recvs = transfers pieces ++ ts) (fuel : Nat) (hfuel : pieces.length < fuel) :
    gather cap fuel pieces.flatten.length c =
      ⟨pieces, .full, { c with input := rest, recvs := ts }⟩ := by
  induction pieces generalizing c fuel with
  | nil =>
    obtain ⟨fuel, rfl⟩ : ∃ f, fuel = f + 1 := ⟨fuel - 1, by simp at hfuel; omega⟩
    cases c
    simp_all [transfers]
  | cons piece pieces ih =>
    obtain ⟨fuel, rfl⟩ : ∃ f, fuel = f + 1 := ⟨fuel - 1, by simp at hfuel; omega⟩
    have hpos : 0 < piece.length := List.length_pos_iff.mpr (hne piece (by simp))
    have hpiece := hle piece (by simp)
    have hlen : (piece :: pieces).flatten.length = piece.length + pieces.flatten.length := by simp
    have hrecv := recv_piece c piece (pieces.flatten ++ rest) (transfers pieces ++ ts)
      (min (piece :: pieces).flatten.length cap) (by rw [hi]; simp) hr (by omega)
    rw [gather_chunk (by omega) hrecv]
    rw [hlen, Nat.add_sub_cancel_left, ih _ (fun d hd => hne d (by simp [hd]))
      (fun d hd => hle d (by simp [hd])) rfl rfl fuel (by simpa using hfuel)]

/-- A counted read of a block receives the pieces in which the block is delivered. -/
theorem gather_cutting {cap : Nat} {block : List α} (cut : Cutting block cap) (rest : List α)
    (ts : List Transfer) (c : Socket α) (hi : c.input = block ++ rest)
    (hr : c.recvs = transfers cut.pieces ++ ts) :
    gather cap (c.fuelFor block.length) block.length c =
      ⟨cut.pieces, .full, { c with input := rest, recvs := ts }⟩ := by
  have h := gather_pieces cut.pieces rest ts c cut.ne_nil cut.length_le
    (by rw [cut.joined]; exact hi) hr (c.fuelFor block.length) (by
      simp only [fuelFor, hr, List.length_append, transfers_length]; omega)
  rwa [cut.joined] at h

/-- Whole transfers fill the buffer each time: every piece of a read whose size is a multiple of
`m` has a multiple of `m` elements, when the buffer has. -/
theorem gather_whole_dvd {cap fuel n m : Nat} {c : Socket α} (hcap : m ∣ cap) (hn : m ∣ n)
    (hr : c.recvs = []) (hi : n ≤ c.input.length) :
    ∀ chunk ∈ (gather cap fuel n c).chunks, m ∣ chunk.length := by
  induction fuel generalizing n c with
  | zero => simp [gather]
  | succ fuel ih =>
    by_cases h0 : n = 0
    · subst n; simp
    · have hmin : m ∣ min n cap := by rcases Nat.le_total n cap with h | h <;> simp [h, hn, hcap]
      have hlen : (c.input.take (min n cap)).length = min n cap := by
        rw [List.length_take]; omega
      rw [gather_chunk h0 (recv_unscheduled hr _)]
      intro chunk hm
      rcases List.mem_cons.mp hm with rfl | hm
      · rwa [hlen]
      · refine ih (c := { c with input := c.input.drop (min n cap) }) ?_ hr ?_ chunk hm
        · rw [hlen]; exact Nat.dvd_sub hn hmin
        · simp only [List.length_drop, hlen]; omega

theorem gather_whole_recvs {cap fuel n : Nat} {c : Socket α} (hr : c.recvs = []) :
    (gather cap fuel n c).socket.recvs = [] := by
  induction fuel generalizing n c with
  | zero => exact hr
  | succ fuel ih =>
    by_cases h0 : n = 0
    · subst n; simpa using hr
    · rw [gather_chunk h0 (recv_unscheduled hr _)]
      exact ih hr

end Socket

end Mrhc
