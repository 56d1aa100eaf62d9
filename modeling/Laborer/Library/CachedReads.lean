import Laborer.Library.OrderedMap
import Laborer.Library.Transactions

/-!
# Reading through a cache

A program that reads a fallible source through a cache, as a computation that
may fail and threads the cache with a log of the reads it makes. `Computes`
relates it to the program that reads the source directly: same result, and no
key is read twice.
-/

namespace Laborer.Library

open List OrderedMap

variable {κ ν ε : Type}

/-! ## Computations that read through a cache -/

/-- A cache of the values read so far, and every read of the source. -/
structure CachedReads (κ ν : Type) where
  cache : OrderedMap κ ν
  reads : List κ

def CachedReads.empty : CachedReads κ ν := { cache := [], reads := [] }

abbrev Reading (κ ν ε : Type) := ExceptT ε (StateM (CachedReads κ ν))

def runReading {α : Type} (x : Reading κ ν ε α) (s : CachedReads κ ν) :
    Except ε α × CachedReads κ ν :=
  x.run.run s

/-! ## Running -/

theorem runReading_bind {α β : Type} (x : Reading κ ν ε α) (f : α → Reading κ ν ε β)
    (s : CachedReads κ ν) : runReading (x >>= f) s =
      match runReading x s with
      | (.ok a, s') => runReading (f a) s'
      | (.error e, s') => (.error e, s') := by
  show (ExceptT.bindCont f (x s).1) (x s).2 = _
  show _ = match x s with
    | (.ok a, s') => (f a) s'
    | (.error e, s') => (.error e, s')
  rcases x s with ⟨a | e, s'⟩ <;> rfl

/-! ## Counting reads -/

/-- Every read but the last returned a value, and none was made twice. -/
def ReadsOnce (fetch : κ → Except ε ν) (s : CachedReads κ ν) : Prop :=
  ∃ ks : List κ, ks.Nodup ∧ (∀ k ∈ ks, ∃ v, fetch k = .ok v) ∧
    (s.reads = ks ∨ ∃ k, s.reads = ks ++ [k])

/-- **Bounded reading**: at most one read more than the source has values. -/
theorem ReadsOnce.length_le {fetch : κ → Except ε ν} {s : CachedReads κ ν}
    (h : ReadsOnce fetch s) {known : List κ} (hknown : ∀ k v, fetch k = .ok v → k ∈ known) :
    s.reads.length ≤ known.length + 1 := by
  obtain ⟨ks, hnodup, hvalues, hreads⟩ := h
  have hsubset : ks ⊆ known := by
    intro k hk
    obtain ⟨v, hv⟩ := hvalues k hk
    exact hknown k v hv
  have hlength : ks.length ≤ known.length := (subperm_of_subset hnodup hsubset).length_le
  rcases hreads with hreads | ⟨k, hreads⟩
  · rw [hreads]
    omega
  · rw [hreads, length_append, length_singleton]
    omega

variable [DecidableEq κ]

def cachedLoad (fetch : κ → Except ε ν) (k : κ) : Reading κ ν ε ν :=
  ExceptT.mk fun s =>
    match s.cache.get? k with
    | some v => (.ok v, s)
    | none =>
      match fetch k with
      | .ok v => (.ok v, { cache := s.cache.set k v, reads := s.reads ++ [k] })
      | .error e => (.error e, { s with reads := s.reads ++ [k] })

/-! ## Caches that agree with the source -/

/-- The cache holds what the source returns, for every key that was read. -/
structure Consistent (fetch : κ → Except ε ν) (s : CachedReads κ ν) : Prop where
  cached : ∀ k v, s.cache.get? k = some v → fetch k = .ok v
  reads : ∀ k ∈ s.reads, ∃ v, s.cache.get? k = some v
  nodup : s.reads.Nodup

theorem consistent_empty (fetch : κ → Except ε ν) : Consistent fetch CachedReads.empty :=
  ⟨(fun _ _ h => nomatch h), fun _ h => absurd h not_mem_nil, nodup_nil⟩

theorem Consistent.readsOnce {fetch : κ → Except ε ν} {s : CachedReads κ ν}
    (h : Consistent fetch s) : ReadsOnce fetch s := by
  refine ⟨s.reads, h.nodup, fun k hk => ?_, .inl rfl⟩
  obtain ⟨v, hv⟩ := h.reads k hk
  exact ⟨v, h.cached k v hv⟩

/-! ## Computing the same as without a cache -/

/-- From a consistent cache the computation has the given result, leaves a
consistent cache when it succeeds, and reads no key twice. -/
def Computes {α : Type} (fetch : κ → Except ε ν) (x : Reading κ ν ε α) (y : Except ε α) : Prop :=
  ∀ s, Consistent fetch s → (runReading x s).1 = y ∧
    (∀ a, y = .ok a → Consistent fetch (runReading x s).2) ∧ ReadsOnce fetch (runReading x s).2

variable {α β : Type} {fetch : κ → Except ε ν}

theorem computes_pure (a : α) : Computes fetch (pure a) (.ok a) :=
  fun _ hs => ⟨rfl, fun _ _ => hs, hs.readsOnce⟩

theorem computes_throw (e : ε) : Computes fetch (throw e : Reading κ ν ε α) (.error e) :=
  fun _ hs => ⟨rfl, (fun _ h => nomatch h), hs.readsOnce⟩

theorem computes_bind {x : Reading κ ν ε α} {y : Except ε α} {f : α → Reading κ ν ε β}
    {g : α → Except ε β} (hx : Computes fetch x y) (hf : ∀ a, Computes fetch (f a) (g a)) :
    Computes fetch (x >>= f) (y >>= g) := by
  intro s hs
  obtain ⟨hresult, hconsistent, hreads⟩ := hx s hs
  rw [runReading_bind]
  cases hrun : runReading x s with
  | mk result s' =>
    rw [hrun] at hresult hconsistent hreads
    subst hresult
    cases result with
    | ok a => exact hf a s' (hconsistent a rfl)
    | error e => exact ⟨rfl, (fun _ h => nomatch h), hreads⟩

/-- **A cached read** computes the read of the source. -/
theorem computes_cachedLoad (k : κ) : Computes fetch (cachedLoad fetch k) (fetch k) := by
  intro s hs
  have hrun : runReading (cachedLoad fetch k) s =
      match s.cache.get? k with
      | some v => (.ok v, s)
      | none =>
        match fetch k with
        | .ok v => (.ok v, { cache := s.cache.set k v, reads := s.reads ++ [k] })
        | .error e => (.error e, { s with reads := s.reads ++ [k] }) := rfl
  rw [hrun]
  cases hcache : s.cache.get? k with
  | some v => exact ⟨(hs.cached k v hcache).symm, fun _ _ => hs, hs.readsOnce⟩
  | none =>
    -- the key was not read before, since all keys that were are in the cache
    have hnew : k ∉ s.reads := by
      intro hmem
      obtain ⟨v, hv⟩ := hs.reads k hmem
      rw [hcache] at hv
      cases hv
    cases hfetch : fetch k with
    | error e =>
      refine ⟨rfl, (fun _ h => nomatch h), s.reads, hs.nodup, fun k' hk' => ?_, .inr ⟨k, rfl⟩⟩
      obtain ⟨v, hv⟩ := hs.reads k' hk'
      exact ⟨v, hs.cached k' v hv⟩
    | ok v =>
      have hnext : Consistent fetch { cache := s.cache.set k v, reads := s.reads ++ [k] } := by
        refine ⟨fun k' v' h => ?_, fun k' hk' => ?_, ?_⟩
        · rw [get?_set] at h
          split at h
          · next heq =>
            cases h
            exact heq ▸ hfetch
          · exact hs.cached k' v' h
        · rw [get?_set]
          split
          · exact ⟨v, rfl⟩
          · next hne =>
            rcases mem_append.mp hk' with hk' | hk'
            · exact hs.reads k' hk'
            · exact absurd (mem_singleton.mp hk').symm hne
        · exact nodup_append.mpr ⟨hs.nodup, nodup_singleton k,
            fun a ha b hb heq => hnew (by rw [mem_singleton.mp hb] at heq; exact heq ▸ ha)⟩
      exact ⟨rfl, fun _ _ => hnext, hnext.readsOnce⟩

end Laborer.Library
