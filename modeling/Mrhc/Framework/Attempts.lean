import Mathlib.Data.List.Basic

/-!
# Connection attempts

What the kernel does with a stream socket that is being connected: the status flags of its
descriptor, the answer of the peer, which takes its time, and calls that fail for reasons of their
own. A call that fails returns nothing and sets `errno`.
-/

namespace Mrhc

/-- The error of a call that would have to wait for the peer. -/
def eInProgress : Int := 115

def eTimedOut : Int := 110

/-- The status flag of a descriptor whose calls do not wait. -/
def oNonblock : UInt32 := 0x800

/-- When the answer to the attempt arrives, and its error, which is zero when the peer accepts. -/
structure PeerAnswer where
  time : Nat
  error : Int
deriving DecidableEq

/-- An attempt as the kernel sees it. Each call takes an element of `faults`, if there is one, which
is the error with which it fails. -/
structure Attempt where
  flags : UInt32
  clock : Nat
  answer : PeerAnswer
  errno : Int
  faults : List (Option Int)
deriving DecidableEq

namespace Attempt

abbrev Call (α : Type) := Attempt → Option α × Attempt

/-- A call that fails when it is its turn to. -/
def call {α : Type} (effect : Call α) : Call α := fun k =>
  match k.faults with
  | some error :: faults => (none, { k with errno := error, faults := faults })
  | none :: faults => effect { k with faults := faults }
  | [] => effect k

/-- The result of a connect once the answer is there. -/
def answered : Call Unit := fun k =>
  if k.answer.error = 0 then (some (), k) else (none, { k with errno := k.answer.error })

def getFlags : Call UInt32 := call fun k => (some k.flags, k)

def setFlags (flags : UInt32) : Call Unit := call fun k => (some (), { k with flags := flags })

/-- An answer that is there decides. Without one the call waits for it, or says that it would. -/
def connect : Call Unit := call fun k =>
  if k.answer.time ≤ k.clock then answered k
  else if k.flags &&& oNonblock = 0 then answered { k with clock := k.answer.time }
  else (none, { k with errno := eInProgress })

/-- Waits for the answer, at most this long. The number of descriptors that are ready comes back. -/
def select (timeout : Nat) : Call Nat := call fun k =>
  if k.answer.time ≤ k.clock + timeout then
    (some 1, { k with clock := max k.clock k.answer.time })
  else (some 0, { k with clock := k.clock + timeout })

/-- The error that the socket has from the attempt so far. -/
def getError : Call Int := call fun k =>
  (some (if k.answer.time ≤ k.clock then k.answer.error else 0), k)

/-- What every call keeps: the answer, and a schedule without faults. -/
structure Continues (k k' : Attempt) : Prop where
  answer : k'.answer = k.answer
  faultless : k.faults = [] → k'.faults = []

theorem Continues.trans {k k' k'' : Attempt} (h : Continues k k') (h' : Continues k' k'') :
    Continues k k'' where
  answer := h'.answer.trans h.answer
  faultless := fun hfaults => h'.faultless (h.faultless hfaults)

private theorem call_cases {α : Type} (effect : Call α) (k : Attempt) :
    (k.faults ≠ [] ∧ ∃ error faults,
      call effect k = (none, { k with errno := error, faults := faults })) ∨
    ∃ faults, (k.faults = [] → faults = []) ∧
      call effect k = effect { k with faults := faults } := by
  rw [call]
  split
  · next error faults hfaults =>
    exact Or.inl ⟨by simp [hfaults], error, faults, rfl⟩
  · next faults hfaults =>
    exact Or.inr ⟨faults, by simp [hfaults], rfl⟩
  · exact Or.inr ⟨k.faults, id, rfl⟩

section

variable (k : Attempt)

theorem getFlags_cases : ∃ k', Continues k k' ∧ k'.flags = k.flags ∧ k'.clock = k.clock ∧
    (getFlags k = (some k.flags, k') ∨ k.faults ≠ [] ∧ getFlags k = (none, k')) := by
  rcases call_cases (fun k => (some k.flags, k)) k with
    ⟨hfaults, error, faults, hcall⟩ | ⟨faults, hfaults, hcall⟩
  · exact ⟨{ k with errno := error, faults := faults },
      ⟨rfl, fun hnil => absurd hnil hfaults⟩, rfl, rfl, Or.inr ⟨hfaults, hcall⟩⟩
  · exact ⟨{ k with faults := faults }, ⟨rfl, hfaults⟩, rfl, rfl, Or.inl hcall⟩

theorem setFlags_cases (flags : UInt32) : ∃ k', Continues k k' ∧ k'.clock = k.clock ∧
    (setFlags flags k = (some (), k') ∧ k'.flags = flags ∧ k'.errno = k.errno ∨
      k.faults ≠ [] ∧ setFlags flags k = (none, k')) := by
  rcases call_cases (fun k => (some (), { k with flags := flags })) k with
    ⟨hfaults, error, faults, hcall⟩ | ⟨faults, hfaults, hcall⟩
  · exact ⟨{ k with errno := error, faults := faults },
      ⟨rfl, fun hnil => absurd hnil hfaults⟩, rfl, Or.inr ⟨hfaults, hcall⟩⟩
  · exact ⟨{ k with flags := flags, faults := faults }, ⟨rfl, hfaults⟩, rfl,
      Or.inl ⟨hcall, rfl, rfl⟩⟩

/-- A connect that does not wait succeeds only with an answer that is there. -/
theorem connect_cases (hflags : k.flags &&& oNonblock ≠ 0) :
    ∃ k', Continues k k' ∧ k'.clock = k.clock ∧
      (connect k = (some (), k') ∧ k.answer.time ≤ k.clock ∧ k.answer.error = 0 ∨
        connect k = (none, k') ∧ (k.faults = [] →
          k.answer.time ≤ k.clock ∧ k.answer.error ≠ 0 ∧ k'.errno = k.answer.error ∨
            k.clock < k.answer.time ∧ k'.errno = eInProgress)) := by
  rcases call_cases _ k with ⟨hfaults, error, faults, hcall⟩ | ⟨faults, hfaults, hcall⟩
  · exact ⟨{ k with errno := error, faults := faults },
      ⟨rfl, fun hnil => absurd hnil hfaults⟩, rfl,
      Or.inr ⟨hcall, fun hnil => absurd hnil hfaults⟩⟩
  · by_cases htime : k.answer.time ≤ k.clock
    · rw [if_pos htime, answered] at hcall
      by_cases herror : k.answer.error = 0
      · rw [if_pos herror] at hcall
        exact ⟨{ k with faults := faults }, ⟨rfl, hfaults⟩, rfl, Or.inl ⟨hcall, htime, herror⟩⟩
      · rw [if_neg herror] at hcall
        exact ⟨{ k with errno := k.answer.error, faults := faults }, ⟨rfl, hfaults⟩, rfl,
          Or.inr ⟨hcall, fun _ => Or.inl ⟨htime, herror, rfl⟩⟩⟩
    · rw [if_neg htime, if_neg hflags] at hcall
      exact ⟨{ k with errno := eInProgress, faults := faults }, ⟨rfl, hfaults⟩, rfl,
        Or.inr ⟨hcall, fun _ => Or.inr ⟨by omega, rfl⟩⟩⟩

theorem select_cases (timeout : Nat) : ∃ k', Continues k k' ∧ k'.clock ≤ k.clock + timeout ∧
    (select timeout k = (some 1, k') ∧ k.answer.time ≤ k'.clock ∨
      select timeout k = (some 0, k') ∧ k.clock + timeout < k.answer.time ∨
      k.faults ≠ [] ∧ select timeout k = (none, k')) := by
  rcases call_cases _ k with ⟨hfaults, error, faults, hcall⟩ | ⟨faults, hfaults, hcall⟩
  · exact ⟨{ k with errno := error, faults := faults },
      ⟨rfl, fun hnil => absurd hnil hfaults⟩, Nat.le_add_right _ _,
      Or.inr (Or.inr ⟨hfaults, hcall⟩)⟩
  · by_cases htime : k.answer.time ≤ k.clock + timeout
    · rw [if_pos htime] at hcall
      exact ⟨{ k with clock := max k.clock k.answer.time, faults := faults }, ⟨rfl, hfaults⟩,
        Nat.max_le.mpr ⟨Nat.le_add_right _ _, htime⟩,
        Or.inl ⟨hcall, Nat.le_max_right _ _⟩⟩
    · rw [if_neg htime] at hcall
      exact ⟨{ k with clock := k.clock + timeout, faults := faults }, ⟨rfl, hfaults⟩,
        Nat.le_refl _, Or.inr (Or.inl ⟨hcall, by omega⟩)⟩

theorem getError_cases (htime : k.answer.time ≤ k.clock) : ∃ k', Continues k k' ∧
    k'.clock = k.clock ∧ k'.flags = k.flags ∧
      (getError k = (some k.answer.error, k') ∨ k.faults ≠ [] ∧ getError k = (none, k')) := by
  rcases call_cases _ k with ⟨hfaults, error, faults, hcall⟩ | ⟨faults, hfaults, hcall⟩
  · exact ⟨{ k with errno := error, faults := faults },
      ⟨rfl, fun hnil => absurd hnil hfaults⟩, rfl, rfl, Or.inr ⟨hfaults, hcall⟩⟩
  · rw [if_pos htime] at hcall
    exact ⟨{ k with faults := faults }, ⟨rfl, hfaults⟩, rfl, rfl, Or.inl hcall⟩

end

end Attempt

end Mrhc
