import Mrhc.Client.Messages
import Mrhc.Framework.Programs

/-!
# The payload loop

The loop of `recv_rectangle` is a counted read through a buffer of 1024 bytes. Each piece that
`recv` returns is decoded on its own, from its first byte.
-/

namespace Mrhc

/-- The session after the loop has appended pixels. -/
def Session.push (s : Session) (pixels : List UInt32) : Session :=
  s.update fun c => { c with imageBuf := c.imageBuf ++ pixels }

@[simp] theorem Session.push_nil (s : Session) : s.push [] = s := by
  simp [Session.push, Session.update]

@[simp] theorem Session.push_push (s : Session) (ps qs : List UInt32) :
    (s.push ps).push qs = s.push (ps ++ qs) := by
  simp [Session.push, Session.update]

@[simp] theorem Session.push_conn (s : Session) (ps : List UInt32) : (s.push ps).conn = s.conn :=
  rfl

@[simp] theorem Session.on_push (s : Session) (ps : List UInt32) (c : Socket UInt8) :
    (s.push ps).on c = (s.on c).push ps := rfl

private theorem words_load (bs : Bytes) (h : bs ≠ []) :
    words bs = load32 bs 0 :: words (bs.drop 4) := by
  rcases bs with _ | ⟨b₀, _ | ⟨b₁, _ | ⟨b₂, _ | ⟨b₃, rest⟩⟩⟩⟩
  · exact absurd rfl h
  all_goals simp [words, load32]

theorem words_drop (buf : Bytes) (i : Nat) (hi : i < buf.length) :
    words (buf.drop i) = load32 buf i :: words (buf.drop (i + 4)) := by
  have hne : buf.drop i ≠ [] := by
    intro h
    have hl := congrArg List.length h
    simp only [List.length_drop, List.length_nil] at hl
    omega
  rw [words_load _ hne, List.drop_drop]
  simp [load32, List.getD_eq_getElem?_getD, List.getElem?_drop]

/-- With four bytes per pixel the inner loop stays inside the buffer and ends. -/
theorem pushPixels_run (buf : Bytes) (fuel i : Nat) (s : Session) (hbuf : buf.length ≤ bufSize)
    (hi : 4 ∣ i) (hpos : 0 < fuel) (hfuel : buf.length < fuel + i) :
    (pushPixels buf 4 fuel i).run s = .ok () (s.push (words (buf.drop i))) := by
  have hsize : bufSize = 1024 := rfl
  induction fuel generalizing i s with
  | zero => omega
  | succ fuel ih =>
    by_cases hlt : i < buf.length
    · have hin : ¬ bufSize < i + 4 := by omega
      have hnext := ih (i + 4) (s.push [load32 buf i]) (by omega) (by omega) (by omega)
      simp only [pushPixels, hlt, hin, if_true, if_false, EStateM.run_bind, modifyClient_run]
      change (pushPixels buf 4 fuel (i + 4)).run (s.push [load32 buf i]) = _
      rw [hnext, Session.push_push, words_drop buf i hlt]
      rfl
    · have hdrop : buf.drop i = [] := List.drop_eq_nil_of_le (by omega)
      simp [pushPixels, hlt, hdrop, words]

/-- How the payload loop returns after a counted read. -/
def afterPayload (g : Gathered UInt8) (s : Session) : EStateM.Result Stop Session Bool :=
  let s' := (s.on g.socket).push (g.chunks.map words).flatten
  match g.ending with
  | .full => .ok true s'
  | .failed => .ok false s'
  | .starved => .error .endless s'

theorem afterPayload_full {g : Gathered UInt8} (s : Session) (h : g.ending = .full) :
    afterPayload g s = .ok true ((s.on g.socket).push (g.chunks.map words).flatten) := by
  simp only [afterPayload, h]

theorem of_afterPayload_true {g : Gathered UInt8} {s s' : Session}
    (h : afterPayload g s = .ok true s') :
    g.ending = .full ∧ s' = (s.on g.socket).push (g.chunks.map words).flatten := by
  unfold afterPayload at h
  cases he : g.ending with
  | full =>
    simp only [he, EStateM.Result.ok.injEq, true_and] at h
    exact ⟨rfl, h.symm⟩
  | failed => simp [he] at h
  | starved => simp [he] at h

/-- One iteration of the payload loop asks for what is missing, as far as the buffer holds it. -/
theorem recvPixels_succ (total received : UInt32) (b : UInt8) (fuel : Nat)
    (hlt : received < total) :
    recvPixels total b (fuel + 1) received = (do
      match ← recv (min (total.toNat - received.toNat) bufSize) with
      | none => return false
      | some buf =>
        pushPixels buf b.toNat (buf.length + 1) 0
        recvPixels total b fuel (received + UInt32.ofNat buf.length)) := by
  have hlt' := UInt32.lt_iff_toNat_lt.mp hlt
  have hsub : (total - received).toNat = total.toNat - received.toNat :=
    UInt32.toNat_sub_of_le total received (UInt32.le_iff_toNat_le.mpr (by omega))
  generalize hn : min (total.toNat - received.toNat) bufSize = n
  rw [recvPixels, if_pos hlt, hsub]
  split
  · obtain rfl : n = total.toNat - received.toNat := by omega
    rfl
  · obtain rfl : n = bufSize := by omega
    rfl

/-- The payload loop is a counted read: it appends the words of each piece, returns when the
read is full or fails, and runs forever when it is starved. -/
theorem recvPixels_run (total received : UInt32) (fuel : Nat) (s : Session)
    (hle : received.toNat ≤ total.toNat) :
    (recvPixels total 4 fuel received).run s =
      afterPayload (s.conn.gather bufSize fuel (total.toNat - received.toNat)) s := by
  have hsize : bufSize = 1024 := rfl
  induction fuel generalizing received s with
  | zero => simp [recvPixels, Socket.gather, afterPayload, Session.on]
  | succ fuel ih =>
    by_cases hlt : received < total
    · have hlt' := UInt32.lt_iff_toNat_lt.mp hlt
      have hn : total.toNat - received.toNat ≠ 0 := by omega
      rw [recvPixels_succ total received 4 fuel hlt]
      simp only [EStateM.run_bind, recv_run]
      rcases s.conn.recv_cases (min (total.toNat - received.toNat) bufSize) with hr | ⟨k, hk, hr⟩
      · simp [hr, Socket.gather_failed hn hr, afterPayload, Session.on]
      · let buf := s.conn.input.take k
        let s' := s.on { s.conn with input := s.conn.input.drop k, recvs := s.conn.recvs.tail }
        have hlen : buf.length ≤ min (total.toNat - received.toNat) bufSize := by
          simp only [buf, List.length_take]; omega
        have htotal := total.toNat_lt
        have hadd : (received + UInt32.ofNat buf.length).toNat = received.toNat + buf.length := by
          rw [UInt32.toNat_add, UInt32.toNat_ofNat', Nat.mod_eq_of_lt (a := buf.length) (by omega),
            Nat.mod_eq_of_lt (by omega)]
        have hpush : (pushPixels buf (4 : UInt8).toNat (buf.length + 1) 0).run s' =
            .ok () (s'.push (words buf)) :=
          pushPixels_run buf (buf.length + 1) 0 s' (by omega) (by omega) (by omega) (by omega)
        have hnext := ih (received + UInt32.ofNat buf.length) (s'.push (words buf)) (by omega)
        have hrest : total.toNat - (received.toNat + buf.length) =
            total.toNat - received.toNat - buf.length := by omega
        simp only [hr]
        change (pushPixels buf (4 : UInt8).toNat (buf.length + 1) 0 >>= fun _ =>
          recvPixels total 4 fuel (received + UInt32.ofNat buf.length)).run s' = _
        rw [bind_ok hpush]
        rw [hnext, hadd, hrest, Socket.gather_chunk hn hr]
        simp only [afterPayload, Session.push_conn, Session.on_push, Session.push_push, s',
          Session.on_conn, Session.on_on, List.map_cons, List.flatten_cons, buf]
    · have hn : total.toNat - received.toNat = 0 := by
        have hge := mt UInt32.lt_iff_toNat_lt.mpr hlt
        omega
      simp [recvPixels, hlt, hn, afterPayload, Session.on]

theorem recvPixels_moreFuel (total : UInt32) {fuel fuel' : Nat} (s : Session) (hle : fuel ≤ fuel')
    (h : ∀ t, (recvPixels total 4 fuel 0).run s ≠ .error .endless t) :
    (recvPixels total 4 fuel' 0).run s = (recvPixels total 4 fuel 0).run s := by
  have hz : (0 : UInt32).toNat = 0 := rfl
  rw [recvPixels_run _ _ _ _ (by omega), hz, Nat.sub_zero] at h ⊢
  have hended : (s.conn.gather bufSize fuel total.toNat).ending ≠ .starved := by
    intro hstarved
    apply h
    simp only [afterPayload, hstarved]
    rfl
  rw [recvPixels_run _ _ _ _ (by omega), hz, Nat.sub_zero, Socket.gather_fuel_mono hle hended]

/-- When the payload loop runs out of its fuel it runs out of any: the source loops forever. -/
theorem recvPixels_endless (total : UInt32) (s s' : Session)
    (h : (recvPixels total 4 (s.conn.fuelFor total.toNat) 0).run s = .error .endless s')
    (fuel : Nat) : ∃ t, (recvPixels total 4 fuel 0).run s = .error .endless t := by
  have hz : (0 : UInt32).toNat = 0 := rfl
  rw [recvPixels_run _ _ _ _ (by omega), hz, Nat.sub_zero] at h
  have hstarved : (s.conn.gather bufSize (s.conn.fuelFor total.toNat) total.toNat).ending =
      .starved := by
    unfold afterPayload at h
    split at h <;> simp_all
  have hforever := Socket.gather_starved_forever (by decide : 0 < bufSize)
    (by simp only [Socket.fuelFor]; omega) hstarved fuel
  rw [recvPixels_run _ _ _ _ (by omega), hz, Nat.sub_zero, afterPayload, hforever]
  exact ⟨_, rfl⟩

end Mrhc
