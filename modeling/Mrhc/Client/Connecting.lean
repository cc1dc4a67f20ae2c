import Mrhc.Client.Handshake
import Mrhc.Framework.Attempts
import Mrhc.Framework.Programs

/-!
# Connecting with a timeout

`connect_with_timeout` makes the descriptor's calls return at once, starts the attempt, waits for
its answer, and makes the calls wait again. It decides in time whatever the peer and the system
calls do.
-/

namespace Mrhc

open Attempt

/-- What has come of the attempt: the variable `res` of the source, negative, zero or positive. -/
inductive Awaited where
  | failed
  | timedOut
  | writable
deriving DecidableEq

/-- The part of `connect_with_timeout` between the two changes of the flags. -/
def awaitConnection (timeout : Nat) (k : Attempt) : Awaited × Attempt :=
  match connect k with
  | (some (), k) => (.writable, k)
  | (none, k) =>
    if k.errno = eInProgress then
      match select timeout k with
      | (none, k) => (.failed, k)
      | (some n, k) => (if n = 0 then .timedOut else .writable, k)
    else (.failed, k)

/-- The part of `connect_with_timeout` after the flags have been reset. -/
def connectionResult (res : Awaited) (k : Attempt) : Int × Attempt :=
  match res with
  | .failed => (-1, k)
  | .timedOut => (-1, { k with errno := eTimedOut })
  | .writable =>
    match getError k with
    | (none, k) => (-1, k)
    | (some opt, k) => if opt ≠ 0 then (-1, { k with errno := opt }) else (0, k)

def connectWithTimeout (timeout : Nat) (k : Attempt) : Int × Attempt :=
  match getFlags k with
  | (none, k) => (-1, k)
  | (some opt, k) =>
    match setFlags (opt ||| oNonblock) k with
    | (none, k) => (-1, k)
    | (some (), k) =>
      match awaitConnection timeout k with
      | (res, k) =>
        match setFlags opt k with
        | (none, k) => (-1, k)
        | (some (), k) => connectionResult res k

/-- Three seconds, in microseconds. -/
def connectTimeout : Nat := 3000000

/-- What `connect_with_timeout` makes of an attempt that begins at this time: it waits no longer
than it may, succeeds only when the peer accepts in time, and then leaves the flags as they were.
Unless a system call fails for a reason of its own it also succeeds whenever the peer accepts in
time, and says otherwise what has gone wrong. -/
structure Decides (timeout : Nat) (k : Attempt) (result : Int × Attempt) : Prop where
  waits : result.2.clock ≤ k.clock + timeout
  accepted : result.1 = 0 → k.answer.error = 0 ∧ k.answer.time ≤ k.clock + timeout
  kept : result.1 = 0 → result.2.flags = k.flags
  succeeds : k.faults = [] → k.answer.error = 0 → k.answer.time ≤ k.clock + timeout →
    result.1 = 0
  restored : k.faults = [] → result.2.flags = k.flags
  errno : k.faults = [] → result.1 ≠ 0 → result.2.errno =
    if k.answer.time ≤ k.clock + timeout then k.answer.error else eTimedOut

/-- What is known when the flags are reset. -/
private structure Awaits (timeout : Nat) (k : Attempt) (result : Awaited × Attempt) : Prop where
  continues : Continues k result.2
  waits : result.2.clock ≤ k.clock + timeout
  writable : result.1 = .writable → k.answer.time ≤ result.2.clock
  timedOut : result.1 = .timedOut → k.clock + timeout < k.answer.time
  failed : k.faults = [] → result.1 = .failed →
    k.answer.time ≤ k.clock + timeout ∧ k.answer.error ≠ 0 ∧ result.2.errno = k.answer.error

private theorem awaitConnection_awaits (timeout : Nat) (k : Attempt)
    (hflags : k.flags &&& oNonblock ≠ 0) : Awaits timeout k (awaitConnection timeout k) := by
  obtain ⟨k₁, hcontinues₁, hclock₁, hconnect⟩ := connect_cases k hflags
  rw [awaitConnection]
  rcases hconnect with ⟨hconnect, htime, -⟩ | ⟨hconnect, hpending⟩
  · rw [hconnect]
    exact ⟨hcontinues₁, Nat.le_trans (Nat.le_of_eq hclock₁) (Nat.le_add_right _ _),
      fun _ => Nat.le_trans htime (Nat.le_of_eq hclock₁.symm), nofun, fun _ => nofun⟩
  · rw [hconnect]
    simp only
    split
    · obtain ⟨k₂, hcontinues₂, hclock₂, hselect⟩ := select_cases k₁ timeout
      have hcontinues := hcontinues₁.trans hcontinues₂
      rw [hclock₁] at hclock₂ hselect
      rw [hcontinues₁.answer] at hselect
      rcases hselect with ⟨hselect, htime⟩ | ⟨hselect, htime⟩ | ⟨hfaults, hselect⟩
      · rw [hselect]
        exact ⟨hcontinues, hclock₂, fun _ => htime, nofun, fun _ => nofun⟩
      · rw [hselect]
        exact ⟨hcontinues, hclock₂, nofun, fun _ => htime, fun _ => nofun⟩
      · rw [hselect]
        exact ⟨hcontinues, hclock₂, nofun, nofun,
          fun hnil => absurd (hcontinues₁.faultless hnil) hfaults⟩
    · next herrno =>
      refine ⟨hcontinues₁, Nat.le_trans (Nat.le_of_eq hclock₁) (Nat.le_add_right _ _), nofun, nofun,
        fun hnil _ => ?_⟩
      rcases hpending hnil with ⟨htime, herror, heq⟩ | ⟨-, heq⟩
      · exact ⟨by omega, herror, heq⟩
      · exact absurd heq herrno

private theorem nonblocking (flags : UInt32) : (flags ||| oNonblock) &&& oNonblock ≠ 0 := by
  have habsorb : (flags ||| oNonblock) &&& oNonblock = oNonblock := by
    apply UInt32.toBitVec_inj.mp
    apply BitVec.eq_of_getLsbD_eq
    intro i hi
    simp
    exact Or.inr
  rw [habsorb]
  decide

section

variable {timeout : Nat} {k k' : Attempt}

private theorem decides_fault (hclock : k'.clock ≤ k.clock + timeout) (hfaults : k.faults ≠ []) :
    Decides timeout k (-1, k') where
  waits := hclock
  accepted := nofun
  kept := nofun
  succeeds := fun hnil => absurd hnil hfaults
  restored := fun hnil => absurd hnil hfaults
  errno := fun hnil => absurd hnil hfaults

private theorem connectionResult_decides {res : Awaited} {k₃ : Attempt}
    (hawaits : Awaits timeout k (res, k₃)) (hcontinues : Continues k₃ k')
    (hclock : k'.clock = k₃.clock) (hflags : k'.flags = k.flags) (herrno : k'.errno = k₃.errno) :
    Decides timeout k (connectionResult res k') := by
  have hwaits : k'.clock ≤ k.clock + timeout := by
    rw [hclock]
    exact hawaits.waits
  cases res with
  | failed =>
    refine ⟨hwaits, nofun, nofun, fun hnil herror => ?_, fun _ => hflags, fun hnil _ => ?_⟩
    · exact absurd herror (hawaits.failed hnil rfl).2.1
    · obtain ⟨htime, -, heq⟩ := hawaits.failed hnil rfl
      rw [if_pos htime]
      exact herrno.trans heq
  | timedOut =>
    have htime := hawaits.timedOut rfl
    refine ⟨hwaits, nofun, nofun, fun _ _ hle => ?_, fun _ => hflags, fun _ _ => ?_⟩
    · omega
    · rw [if_neg (by omega)]
      rfl
  | writable =>
    have hthere : k'.answer.time ≤ k'.clock := by
      rw [hcontinues.answer, hawaits.continues.answer, hclock]
      exact hawaits.writable rfl
    have htime : k.answer.time ≤ k.clock + timeout := by
      rw [hcontinues.answer, hawaits.continues.answer] at hthere
      exact Nat.le_trans hthere hwaits
    obtain ⟨k₅, hcontinues₅, hclock₅, hflags₅, herror⟩ := getError_cases k' hthere
    have hwaits₅ : k₅.clock ≤ k.clock + timeout := by
      rw [hclock₅]
      exact hwaits
    rw [hcontinues.answer, hawaits.continues.answer] at herror
    rw [connectionResult]
    rcases herror with herror | ⟨hfaults, herror⟩
    · rw [herror]
      simp only
      split
      · next hne =>
        refine ⟨hwaits₅, nofun, nofun, fun _ heq => absurd heq hne, fun _ => hflags₅.trans hflags,
          fun _ _ => ?_⟩
        rw [if_pos htime]
      · next hzero =>
        exact ⟨hwaits₅, fun _ => ⟨not_not.mp hzero, htime⟩, fun _ => hflags₅.trans hflags,
          fun _ _ _ => rfl, fun _ => hflags₅.trans hflags, fun _ hne => absurd rfl hne⟩
    · rw [herror]
      exact decides_fault hwaits₅ fun hnil =>
        hfaults (hcontinues.faultless (hawaits.continues.faultless hnil))

end

/-- `connect_with_timeout` decides in time, whatever the peer answers and whichever system calls
fail. -/
theorem connectWithTimeout_decides (timeout : Nat) (k : Attempt) :
    Decides timeout k (connectWithTimeout timeout k) := by
  obtain ⟨k₁, hcontinues₁, hflags₁, hclock₁, hget⟩ := getFlags_cases k
  rw [connectWithTimeout]
  rcases hget with hget | ⟨hfaults, hget⟩
  · rw [hget]
    obtain ⟨k₂, hcontinues₂, hclock₂, hset⟩ := setFlags_cases k₁ (k.flags ||| oNonblock)
    rcases hset with ⟨hset, hflags₂, -⟩ | ⟨hfaults, hset⟩
    · have hnonblocking : k₂.flags &&& oNonblock ≠ 0 := by
        rw [hflags₂]
        exact nonblocking k.flags
      have hbefore := hcontinues₁.trans hcontinues₂
      have hawaits := awaitConnection_awaits timeout k₂ hnonblocking
      simp only [hset]
      generalize awaitConnection timeout k₂ = result at hawaits
      obtain ⟨res, k₃⟩ := result
      have hawaits' : Awaits timeout k (res, k₃) := by
        have hclock : k₂.clock = k.clock := hclock₂.trans hclock₁
        obtain ⟨hcontinues, hwaits, hwritable, htimedOut, hfailed⟩ := hawaits
        rw [hclock] at hwaits htimedOut hfailed
        rw [hbefore.answer] at hwritable htimedOut hfailed
        exact ⟨hbefore.trans hcontinues, hwaits, hwritable, htimedOut,
          fun hnil => hfailed (hbefore.faultless hnil)⟩
      obtain ⟨k₄, hcontinues₄, hclock₄, hreset⟩ := setFlags_cases k₃ k.flags
      rcases hreset with ⟨hreset, hflags₄, herrno₄⟩ | ⟨hfaults, hreset⟩
      · simp only [hreset]
        exact connectionResult_decides hawaits' hcontinues₄ hclock₄ hflags₄ herrno₄
      · simp only [hreset]
        exact decides_fault (Nat.le_trans (Nat.le_of_eq hclock₄) hawaits'.waits)
          fun hnil => hfaults (hawaits'.continues.faultless hnil)
    · simp only [hset]
      exact decides_fault (by omega) fun hnil => hfaults (hcontinues₁.faultless hnil)
  · rw [hget]
    exact decides_fault (by omega) hfaults

/-- Whether `connect_to_server` succeeds on a socket of which this becomes. -/
def Attempt.connects (k : Attempt) : Bool := (connectWithTimeout connectTimeout k).1 = 0

/-- `initialize` decides within three seconds, whatever the peer answers and whichever system calls
fail. It succeeds only on a connection whose calls wait again, and unless a system call fails it
succeeds exactly when the peer accepts by then. -/
theorem initializeClient_attempt {k : Attempt} (hclock : k.clock = 0) {s : Session}
    (hconnects : s.conn.connects = k.connects) :
    ∃ b k', initializeClient.run s = .ok b s ∧ (connectWithTimeout connectTimeout k).2 = k' ∧
      k'.clock ≤ connectTimeout ∧
      (b = true → k.answer.error = 0 ∧ k.answer.time ≤ connectTimeout ∧ k'.flags = k.flags) ∧
      (k.faults = [] → k'.flags = k.flags ∧
        (b = true ↔ k.answer.error = 0 ∧ k.answer.time ≤ connectTimeout)) := by
  obtain ⟨hwaits, haccepted, hkept, hsucceeds, hrestored, -⟩ :=
    connectWithTimeout_decides connectTimeout k
  rw [hclock, Nat.zero_add] at hwaits haccepted hsucceeds
  have hconnect : connectToServer.run s = .ok s.conn.connects s := rfl
  have hrun : initializeClient.run s = .ok k.connects s := by
    rw [initializeClient, bind_ok hconnect, hconnects]
    cases k.connects with
    | false => rfl
    | true => rfl
  have hzero : k.connects = true ↔ (connectWithTimeout connectTimeout k).1 = 0 :=
    decide_eq_true_iff
  refine ⟨_, _, hrun, rfl, hwaits, fun htrue => ?_, fun hnil => ⟨hrestored hnil, ?_⟩⟩
  · obtain ⟨herror, htime⟩ := haccepted (hzero.mp htrue)
    exact ⟨herror, htime, hkept (hzero.mp htrue)⟩
  · exact ⟨fun htrue => haccepted (hzero.mp htrue), fun h => hzero.mpr (hsucceeds hnil h.1 h.2)⟩

def acceptedAttempt : Attempt := ⟨2, 0, ⟨1000000, 0⟩, 0, []⟩

theorem initializeClient_acceptedAttempt :
    ∃ s : Session, initializeClient.run s = .ok true s := by
  let s : Session := ⟨VncClient.new [] 5900 [] .blank, Socket.delivering []⟩
  obtain ⟨b, k, hrun, -, -, -, hdecides⟩ :=
    initializeClient_attempt (k := acceptedAttempt) (s := s) rfl rfl
  obtain rfl : b = true := (hdecides rfl).2.mpr ⟨rfl, by decide⟩
  exact ⟨s, hrun⟩

end Mrhc
