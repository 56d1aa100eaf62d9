import Mathlib.Data.Set.Finite.List

/-!
# Acyclic relations

A relation without cycles, whose arrows lead into a finite set, can be followed
from anywhere to an element without an arrow out of it. Where each element has at most one
link, following the links ends or repeats.
-/

namespace Laborer.Library

open Relation List

variable {α β : Type} {r : α → α → Prop}

/-- No element leads back to itself. -/
def Acyclic (r : α → α → Prop) : Prop :=
  ∀ a, ¬ TransGen r a a

theorem Acyclic.of_map {s : β → β → Prop} (hs : Acyclic s) (f : α → β)
    (h : ∀ a b, r a b → s (f a) (f b)) : Acyclic r :=
  fun a ha => hs (f a) (ha.lift f h)

theorem acyclic_of_rank (rank : α → ℕ) (h : ∀ a b, r a b → rank b < rank a) : Acyclic r := by
  apply Acyclic.of_map (s := fun m n : ℕ => n < m) _ rank h
  intro n hn
  have hlt : ∀ m, TransGen (fun m n : ℕ => n < m) n m → m < n := by
    intro m hm
    induction hm with
    | single hstep => exact hstep
    | tail _ hstep ih => exact Nat.lt_trans hstep ih
  exact Nat.lt_irrefl n (hlt n hn)

/-- **Ordered waiting.** Where whoever is waited for waits itself for something greater, if it
waits at all, nobody waits for itself through others. -/
theorem acyclic_of_increasing {δ : Type} [Preorder δ] (waitsAt : α → Option δ)
    (h : ∀ a b, r a b → ∃ p, waitsAt a = some p ∧ ∀ q, waitsAt b = some q → p < q) : Acyclic r := by
  have hpath : ∀ a b, TransGen r a b →
      ∃ p, waitsAt a = some p ∧ ∀ q, waitsAt b = some q → p < q := by
    intro a b hab
    induction hab with
    | single hstep => exact h a _ hstep
    | tail _ hstep ih =>
      obtain ⟨p, hp, hless⟩ := ih
      obtain ⟨q, hq, hnext⟩ := h _ _ hstep
      exact ⟨p, hp, fun last hlast => (hless q hq).trans (hnext last hlast)⟩
  intro a ha
  obtain ⟨p, hp, hless⟩ := hpath a a ha
  exact lt_irrefl p (hless p hp)

/-- **Following the arrows ends.** -/
theorem Acyclic.exists_sink (hr : Acyclic r) (xs : List α) (h : ∀ a b, r a b → b ∈ xs) (a : α) :
    ∃ b, ReflTransGen r a b ∧ ∀ c, ¬ r b c := by
  -- the elements that are reached are finitely many
  have hreached : ∀ b, ReflTransGen r a b → b ∈ a :: xs := by
    intro b hb
    rcases hb.cases_tail with heq | ⟨c, -, hstep⟩
    · rw [← heq]
      exact mem_cons_self
    · exact mem_cons_of_mem a (h c b hstep)
  have hfinite : Finite {b // ReflTransGen r a b} :=
    Set.Finite.subset (finite_toSet (a :: xs)) hreached
  let later (c b : {b // ReflTransGen r a b}) : Prop := TransGen r b.1 c.1
  have htrans : IsTrans _ later := ⟨fun _ _ _ hcb hba => hba.trans hcb⟩
  have hirrefl : Std.Irrefl later := ⟨fun b hb => hr b.1 hb⟩
  obtain ⟨⟨b, hb⟩, -, hlast⟩ :=
    (Finite.wellFounded_of_trans_of_irrefl later).has_min Set.univ ⟨⟨a, .refl⟩, trivial⟩
  exact ⟨b, hb, fun c hc => hlast ⟨c, hb.tail hc⟩ trivial (.single hc)⟩

/-! ## Links that end -/

section Links

variable {f g : α → Option α} {a b : α} {chain chain' : List α}

/-- Following the links from the element goes through these and ends. -/
inductive LinkChain (f : α → Option α) : α → List α → Prop
  | last {a : α} (h : f a = none) : LinkChain f a [a]
  | next {a b : α} {chain : List α} (h : f a = some b) (rest : LinkChain f b chain) :
      LinkChain f a (a :: chain)

def Ends (f : α → Option α) (a : α) : Prop := ∃ chain, LinkChain f a chain

theorem LinkChain.unique (h : LinkChain f a chain) (h' : LinkChain f a chain') :
    chain = chain' := by
  induction h generalizing chain' with
  | last hnone =>
    cases h' with
    | last _ => rfl
    | next hsome _ => simp [hnone] at hsome
  | next hsome _ ih =>
    cases h' with
    | last hnone => simp [hnone] at hsome
    | next hsome' rest' =>
      cases hsome.symm.trans hsome'
      rw [ih rest']

theorem LinkChain.suffix (h : LinkChain f a chain) (hmem : b ∈ chain) :
    ∃ rest, rest <:+ chain ∧ LinkChain f b rest := by
  induction h with
  | last hnone =>
    rw [mem_singleton.mp hmem]
    exact ⟨_, suffix_refl _, .last hnone⟩
  | next hsome rest ih =>
    rcases mem_cons.mp hmem with rfl | hmem
    · exact ⟨_, suffix_refl _, .next hsome rest⟩
    · obtain ⟨found, hsuffix, hchain⟩ := ih hmem
      exact ⟨found, hsuffix.trans (suffix_cons _ _), hchain⟩

theorem LinkChain.nodup (h : LinkChain f a chain) : chain.Nodup := by
  induction h with
  | last _ => exact nodup_singleton _
  | next hsome rest ih =>
    refine nodup_cons.mpr ⟨fun hmem => ?_, ih⟩
    -- the element would start its own chain again, which is shorter
    obtain ⟨again, hsuffix, hagain⟩ := rest.suffix hmem
    have hlength := hsuffix.length_le
    rw [hagain.unique (.next hsome rest), length_cons] at hlength
    omega

theorem Ends.of_next (h : Ends f a) (hnext : f a = some b) : Ends f b := by
  obtain ⟨chain, hchain⟩ := h
  cases hchain with
  | last hnone => simp [hnone] at hnext
  | next hsome rest =>
    cases hsome.symm.trans hnext
    exact ⟨_, rest⟩

theorem Ends.restrict (h : Ends f a) (hfewer : ∀ x, g x = none ∨ g x = f x) : Ends g a := by
  obtain ⟨chain, hchain⟩ := h
  induction hchain with
  | last hnone => exact ⟨_, .last ((hfewer _).elim id fun heq => heq.trans hnone)⟩
  | next hsome _ ih =>
    rcases hfewer _ with hnone | heq
    · exact ⟨_, .last hnone⟩
    · obtain ⟨rest, hrest⟩ := ih
      exact ⟨_, .next (heq.trans hsome) hrest⟩

end Links

end Laborer.Library
