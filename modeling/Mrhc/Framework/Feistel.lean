import Mathlib.Data.List.Forall2

/-!
# Feistel networks

A round mixes one half of a block with a function of the other half and of a key, and the halves
change places. Mixing has to undo itself; nothing is asked of the round function.
-/

namespace Mrhc

namespace Feistel

section

variable {κ α : Type} (mix : α → α → α) (f : α → κ → α)

def round (b : α × α) (k : κ) : α × α := (b.2, mix b.1 (f b.2 k))

/-- The rounds under these keys, one after another. -/
def network (ks : List κ) (b : α × α) : α × α := ks.foldl (round mix f) b

@[simp] theorem network_nil (b : α × α) : network mix f [] b = b := rfl

@[simp] theorem network_cons (k : κ) (ks : List κ) (b : α × α) :
    network mix f (k :: ks) b = network mix f ks (round mix f b k) := rfl

theorem network_append (ks ks' : List κ) (b : α × α) :
    network mix f (ks ++ ks') b = network mix f ks' (network mix f ks b) :=
  List.foldl_append

variable {mix f}

theorem round_swap (hmix : ∀ a c, mix (mix a c) c = a) (b : α × α) (k : κ) :
    round mix f (round mix f b k).swap k = b.swap := by
  simp only [round, Prod.fst_swap, Prod.snd_swap, hmix]
  rfl

/-- The same rounds in the opposite order undo a network on the exchanged halves. -/
theorem network_reverse (hmix : ∀ a c, mix (mix a c) c = a) (ks : List κ) (b : α × α) :
    network mix f ks.reverse (network mix f ks b).swap = b.swap := by
  induction ks generalizing b with
  | nil => rfl
  | cons k ks ih =>
    rw [network_cons, List.reverse_cons, network_append, ih]
    exact round_swap hmix b k

end

/-- Two networks whose rounds keep a relation between their halves under related keys keep it to
the end. -/
theorem network_related {κ κ' α β : Type} {mix : α → α → α} {f : α → κ → α} {mix' : β → β → β}
    {f' : β → κ' → β} {R : α → β → Prop} {S : κ → κ' → Prop}
    (hround : ∀ {a b a' b' k k'}, R a a' → R b b' → S k k' → R (mix a (f b k)) (mix' a' (f' b' k')))
    {ks : List κ} {ks' : List κ'} (hks : List.Forall₂ S ks ks') {b : α × α} {b' : β × β}
    (hb : R b.1 b'.1 ∧ R b.2 b'.2) :
    R (network mix f ks b).1 (network mix' f' ks' b').1 ∧
      R (network mix f ks b).2 (network mix' f' ks' b').2 := by
  induction hks generalizing b b' with
  | nil => exact hb
  | cons hk hks ih => exact ih ⟨hb.2, hround hb.1 hb.2 hk⟩

end Feistel

end Mrhc
