import Laborer.Library.Runs

/-!
# The socket of the PTY host

All hosts of one state directory listen at one socket path, which for a long directory leads
through an alias, and write their registration to one file. Binding the path is the lock
between them. A host that finds a dead socket removes it, and one that stops removes
everything by name when it has let go of it.
-/

namespace Laborer.Terminal

open Library List Bool Option

inductive HostPhase where
  /-- The alias is still to be prepared. -/
  | starting
  /-- The path is to be bound. -/
  | prepared
  /-- The path was taken: its owner is to be connected to. -/
  | contending
  /-- Nobody answered: the socket is to be removed. -/
  | refused
  /-- The path is to be bound a second time. -/
  | retrying
  /-- It listens, and its registration is to be written. -/
  | bound
  | running
  /-- Its registration is removed, and it still listens. -/
  | stopping
  /-- It no longer listens, and its terminals are put away. -/
  | closing
  /-- The socket path is removed, the alias is left. -/
  | leaving
  | gone
deriving DecidableEq

/-- The socket of a host that has bound the path answers. -/
def HostPhase.listens : HostPhase → Bool
  | .bound => true
  | .running => true
  | .stopping => true
  | _ => false

/-- The hosts by number, in the order they were started, and the files: whose socket stands at
the path, whether the alias is there, and whose registration is written. -/
structure HostFiles where
  hosts : List HostPhase
  socket : Option ℕ
  aliasThere : Bool
  registration : Option ℕ

inductive HostStep where
  | starts
  | prepares (host : ℕ)
  | binds (host : ℕ)
  | connects (host : ℕ)
  | removesDeadSocket (host : ℕ)
  | registers (host : ℕ)
  | stops (host : ℕ)
  | closes (host : ℕ)
  | removesSocket (host : ℕ)
  | removesAlias (host : ℕ)
  | dies (host : ℕ)

namespace HostFiles

def initial : HostFiles where
  hosts := []
  socket := none
  aliasThere := false
  registration := none

/-- The path has no alias in it, or the alias is there. -/
def pathLeads (aliased : Bool) (files : HostFiles) : Bool := !aliased || files.aliasThere

def Listens (host : ℕ) (files : HostFiles) : Prop :=
  (files.hosts[host]?).any HostPhase.listens = true

/-- Who answers at the path. -/
def answers (aliased : Bool) (files : HostFiles) : Option ℕ :=
  if files.pathLeads aliased then
    files.socket.filter fun host => (files.hosts[host]?).any HostPhase.listens
  else none

/-- A client that reads a registration connects: the host that answers, whichever is registered. -/
def reaches (aliased : Bool) (files : HostFiles) : Option ℕ :=
  files.registration.bind fun _ => files.answers aliased

def advance (host : ℕ) (phase : HostPhase) (files : HostFiles) : HostFiles :=
  { files with hosts := files.hosts.set host phase }

/-- `rmSync(socketPath, { force: true })`, and what closing a server does. -/
def unlinkSocket (aliased : Bool) (files : HostFiles) : HostFiles :=
  if files.pathLeads aliased then { files with socket := none } else files

/-- A path that is taken makes the host fail when it binds for the second time. -/
def bind (aliased : Bool) (host : ℕ) (taken : HostPhase) (files : HostFiles) : HostFiles :=
  if files.pathLeads aliased then
    match files.socket with
    | none => { files with socket := some host }.advance host .bound
    | some _ => files.advance host taken
  else files.advance host .gone

def handle (aliased : Bool) (step : HostStep) (files : HostFiles) : HostFiles :=
  match step with
  | .starts => { files with hosts := files.hosts ++ [.starting] }
  | .prepares host =>
    match files.hosts[host]? with
    | some .starting =>
        { files with aliasThere := files.aliasThere || aliased }.advance host .prepared
    | _ => files
  | .binds host =>
    match files.hosts[host]? with
    | some .prepared => files.bind aliased host .contending
    | some .retrying => files.bind aliased host .gone
    | _ => files
  | .connects host =>
    match files.hosts[host]? with
    | some .contending =>
      if (files.answers aliased).isSome then files.advance host .gone
      else files.advance host .refused
    | _ => files
  | .removesDeadSocket host =>
    match files.hosts[host]? with
    | some .refused => (files.unlinkSocket aliased).advance host .retrying
    | _ => files
  | .registers host =>
    match files.hosts[host]? with
    | some .bound =>
      -- `chmodSync` throws where no socket is found
      if files.pathLeads aliased && files.socket.isSome then
        { files with registration := some host }.advance host .running
      else files.advance host .gone
    | _ => files
  | .stops host =>
    match files.hosts[host]? with
    | some .running => { files with registration := none }.advance host .stopping
    | _ => files
  | .closes host =>
    match files.hosts[host]? with
    | some .stopping => (files.unlinkSocket aliased).advance host .closing
    | _ => files
  | .removesSocket host =>
    match files.hosts[host]? with
    | some .closing => (files.unlinkSocket aliased).advance host .leaving
    | _ => files
  | .removesAlias host =>
    match files.hosts[host]? with
    | some .leaving =>
      { files with aliasThere := files.aliasThere && !aliased }.advance host .gone
    | _ => files
  | .dies host => files.advance host .gone

/-! ## Runs -/

/-- The steps that remove by name find nothing of a host that listens. -/
def Calm (aliased : Bool) (step : HostStep) (files : HostFiles) : Prop :=
  match step with
  | .removesDeadSocket host =>
    files.hosts[host]? = some .refused → files.answers aliased = none
  | .removesSocket host =>
    files.hosts[host]? = some .closing → files.answers aliased = none
  | .removesAlias host =>
    files.hosts[host]? = some .leaving → aliased = true → files.answers aliased = none
  | _ => True

instance (aliased : Bool) (step : HostStep) (files : HostFiles) :
    Decidable (Calm aliased step files) :=
  match step with
  | .removesDeadSocket host =>
    inferInstanceAs (Decidable (files.hosts[host]? = some .refused → files.answers aliased = none))
  | .removesSocket host =>
    inferInstanceAs (Decidable (files.hosts[host]? = some .closing → files.answers aliased = none))
  | .removesAlias host =>
    inferInstanceAs (Decidable (files.hosts[host]? = some .leaving → aliased = true →
      files.answers aliased = none))
  | .starts => isTrue trivial
  | .prepares _ => isTrue trivial
  | .binds _ => isTrue trivial
  | .connects _ => isTrue trivial
  | .registers _ => isTrue trivial
  | .stops _ => isTrue trivial
  | .closes _ => isTrue trivial
  | .dies _ => isTrue trivial

variable {aliased : Bool} {files : HostFiles} {host : ℕ} {phase : HostPhase}

theorem listens_iff (host : ℕ) :
    files.Listens host ↔ ∃ phase, files.hosts[host]? = some phase ∧ phase.listens = true := by
  rw [Listens, Option.any_eq_true]

theorem listens_of_phase (h : files.hosts[host]? = some phase)
    (hphase : phase.listens = true) : files.Listens host :=
  (listens_iff host).mpr ⟨phase, h, hphase⟩

/-- A host that listens has its socket at the path, and one that runs its registration. -/
structure Inv (aliased : Bool) (files : HostFiles) : Prop where
  owns : ∀ host, files.Listens host → files.socket = some host ∧ files.pathLeads aliased = true
  registered : ∀ host, files.hosts[host]? = some .running → files.registration = some host

theorem inv_initial : Inv aliased initial where
  owns := fun host h => by cases h
  registered := fun host h => by cases h

section

variable (h : files.Inv aliased)
include h

theorem Inv.unique {other : ℕ} (hhost : files.Listens host)
    (hother : files.Listens other) : host = other :=
  some.inj ((h.owns host hhost).1.symm.trans (h.owns other hother).1)

theorem Inv.answers (hhost : files.Listens host) : files.answers aliased = some host := by
  obtain ⟨hsocket, hleads⟩ := h.owns host hhost
  rw [HostFiles.answers, if_pos hleads, hsocket]
  exact if_pos hhost

theorem Inv.advance {after : HostFiles} (hhosts : after.hosts = files.hosts)
    (hothers : ∀ other, other ≠ host → files.Listens other →
      after.socket = files.socket ∧ after.pathLeads aliased = files.pathLeads aliased)
    (hregistration : ∀ other, other ≠ host → files.hosts[other]? = some .running →
      after.registration = files.registration) (hself : phase.listens = true →
      after.socket = some host ∧ after.pathLeads aliased = true)
    (hrunning : phase = .running → after.registration = some host) :
    (after.advance host phase).Inv aliased := by
  have hget : ∀ (other : ℕ) (found : HostPhase),
      (after.advance host phase).hosts[other]? = some found →
        other = host ∧ found = phase ∨ other ≠ host ∧ files.hosts[other]? = some found := by
    intro other found hfound
    rw [HostFiles.advance, hhosts, getElem?_set] at hfound
    split at hfound
    · next heq =>
      split at hfound
      · exact .inl ⟨heq.symm, (some.inj hfound).symm⟩
      · cases hfound
    · next hne => exact .inr ⟨Ne.symm hne, hfound⟩
  constructor
  · intro other hother
    obtain ⟨found, hfound, hlistens⟩ := (listens_iff other).mp hother
    rcases hget other found hfound with ⟨rfl, rfl⟩ | ⟨hne, hold⟩
    · exact hself hlistens
    · obtain ⟨hsocket, hleads⟩ := hothers other hne (listens_of_phase hold hlistens)
      obtain ⟨howns, hpath⟩ := h.owns other (listens_of_phase hold hlistens)
      exact ⟨hsocket.trans howns, hleads.trans hpath⟩
  · intro other hother
    rcases hget other .running hother with ⟨rfl, heq⟩ | ⟨hne, hold⟩
    · exact hrunning heq.symm
    · exact (hregistration other hne hold).trans (h.registered other hold)

theorem Inv.retire (host : ℕ)
    (hphase : phase.listens = false) : (files.advance host phase).Inv aliased := by
  apply h.advance rfl (fun _ _ _ => ⟨rfl, rfl⟩) (fun _ _ _ => rfl)
  · intro hlistens
    rw [hphase] at hlistens
    cases hlistens
  · rintro rfl
    cases hphase

theorem Inv.none_listens (hnone : files.answers aliased = none)
    (host : ℕ) : ¬files.Listens host := by
  intro hlistens
  rw [h.answers hlistens] at hnone
  cases hnone

theorem Inv.unlink
    (hothers : ∀ other, other ≠ host → ¬files.Listens other) (hphase : phase.listens = false) :
    ((files.unlinkSocket aliased).advance host phase).Inv aliased := by
  have hhosts : (files.unlinkSocket aliased).hosts = files.hosts := by
    unfold unlinkSocket
    split
    · rfl
    · rfl
  refine h.advance hhosts ?_ ?_ ?_ ?_
  · exact fun other hne hlistens => absurd hlistens (hothers other hne)
  · intro other hne hrunning
    exact absurd (listens_of_phase hrunning rfl) (hothers other hne)
  · intro hlistens
    rw [hphase] at hlistens
    cases hlistens
  · rintro rfl
    cases hphase

theorem Inv.bind (host : ℕ) {taken : HostPhase}
    (htaken : taken.listens = false) : (files.bind aliased host taken).Inv aliased := by
  unfold HostFiles.bind
  split
  · next hleads =>
    split
    · next hfree =>
      -- the path is free, so nobody listens
      have hnone : ∀ other, ¬files.Listens other := by
        intro other hlistens
        have howns := (h.owns other hlistens).1
        rw [hfree] at howns
        cases howns
      refine h.advance rfl ?_ ?_ ?_ ?_
      · exact fun other _ hlistens => absurd hlistens (hnone other)
      · exact fun _ _ _ => rfl
      · exact fun _ => ⟨rfl, hleads⟩
      · exact fun hrunning => by cases hrunning
    · exact h.retire host htaken
  · exact h.retire host rfl

theorem Inv.starts :
    ({ files with hosts := files.hosts ++ [.starting] } : HostFiles).Inv aliased := by
  have hold : ∀ (host : ℕ) (phase : HostPhase), phase ≠ .starting →
      (files.hosts ++ [.starting])[host]? = some phase → files.hosts[host]? = some phase := by
    intro host phase hne hphase
    rw [getElem?_append] at hphase
    split at hphase
    · exact hphase
    · obtain ⟨hlength, hlast⟩ := List.getElem?_eq_some_iff.mp hphase
      rw [getElem_singleton] at hlast
      exact absurd hlast.symm hne
  constructor
  · intro host hhost
    obtain ⟨phase, hphase, hlistens⟩ := (listens_iff host).mp hhost
    apply h.owns host
    refine listens_of_phase (hold host phase ?_ hphase) hlistens
    rintro rfl
    cases hlistens
  · intro host hrunning
    exact h.registered host (hold host .running (by decide) hrunning)

/-- **Every calm step keeps the files with their owners.** -/
theorem Inv.step {step : HostStep} (hcalm : Calm aliased step files) :
    (files.handle aliased step).Inv aliased := by
  cases step with (try unfold handle)
  | starts => exact h.starts
  | prepares host =>
    dsimp only
    split
    · refine h.advance rfl ?_ ?_ ?_ ?_
      · intro other _ hlistens
        refine ⟨rfl, ?_⟩
        have hleads := (h.owns other hlistens).2
        rw [hleads]
        simp only [pathLeads, or_eq_true, not_eq_true'] at hleads ⊢
        exact hleads.imp_right .inl
      · exact fun _ _ _ => rfl
      · exact fun hlistens => by cases hlistens
      · exact fun hrunning => by cases hrunning
    · exact h
  | binds host =>
    dsimp only
    split
    · exact h.bind host rfl
    · exact h.bind host rfl
    · exact h
  | connects host =>
    dsimp only
    split
    · split
      · exact h.retire host rfl
      · exact h.retire host rfl
    · exact h
  | removesDeadSocket host =>
    dsimp only
    split
    · next hphase => exact h.unlink (fun other _ => h.none_listens (hcalm hphase) other) rfl
    · exact h
  | registers host =>
    dsimp only
    split
    · next hphase =>
      have hlistens : files.Listens host := listens_of_phase hphase rfl
      split
      · refine h.advance rfl ?_ ?_ ?_ ?_
        · exact fun _ _ _ => ⟨rfl, rfl⟩
        · intro other hne hrunning
          exact absurd (h.unique (listens_of_phase hrunning rfl) hlistens) hne
        · exact fun _ => h.owns host hlistens
        · exact fun _ => rfl
      · exact h.retire host rfl
    · exact h
  | stops host =>
    dsimp only
    split
    · next hphase =>
      have hlistens : files.Listens host := listens_of_phase hphase rfl
      refine h.advance rfl ?_ ?_ ?_ ?_
      · exact fun _ _ _ => ⟨rfl, rfl⟩
      · intro other hne hrunning
        exact absurd (h.unique (listens_of_phase hrunning rfl) hlistens) hne
      · exact fun _ => h.owns host hlistens
      · exact fun hrunning => by cases hrunning
    · exact h
  | closes host =>
    dsimp only
    split
    · next hphase =>
      have hlistens : files.Listens host := listens_of_phase hphase rfl
      exact h.unlink (fun other hne hother => hne (h.unique hother hlistens)) rfl
    · exact h
  | removesSocket host =>
    dsimp only
    split
    · next hphase => exact h.unlink (fun other _ => h.none_listens (hcalm hphase) other) rfl
    · exact h
  | removesAlias host =>
    dsimp only
    split
    · next hphase =>
      refine h.advance rfl ?_ ?_ ?_ ?_
      · intro other _ hlistens
        cases aliased with
        | true => exact absurd hlistens (h.none_listens (hcalm hphase rfl) other)
        | false => exact ⟨rfl, rfl⟩
      · exact fun _ _ _ => rfl
      · exact fun hlistens => by cases hlistens
      · exact fun hrunning => by cases hrunning
    · exact h
  | dies host => exact h.retire host rfl

end

def Serves (host : ℕ) (files : HostFiles) : Prop :=
  files.hosts[host]? = some .bound ∨ files.hosts[host]? = some .running

/-- One host serves at most; it keeps its socket and the way to it, and once it runs its
registration, by which it is reached. -/
structure Sound (aliased : Bool) (files : HostFiles) : Prop where
  one : ∀ host other, files.Serves host → files.Serves other → host = other
  kept : ∀ host, files.Serves host → files.socket = some host ∧ files.pathLeads aliased = true
  registered : ∀ host, files.hosts[host]? = some .running → files.registration = some host
  reached : ∀ host, files.hosts[host]? = some .running → files.reaches aliased = some host

theorem Serves.listens (h : files.Serves host) : files.Listens host := by
  rcases h with h | h
  · exact listens_of_phase h rfl
  · exact listens_of_phase h rfl

theorem Inv.sound (h : files.Inv aliased) : files.Sound aliased where
  one := fun _ _ hhost hother => h.unique hhost.listens hother.listens
  kept := fun host hhost => h.owns host hhost.listens
  registered := h.registered
  reached := fun host hrunning => by
    rw [reaches, h.registered host hrunning]
    exact h.answers (listens_of_phase hrunning rfl)

end HostFiles

/-- **Where nothing of a host that listens is removed by name**, by a contender or by a host
that stops, every state is sound. -/
theorem hostFiles_sound_of_calm (aliased : Bool) {steps : List HostStep}
    (hcalm : RunMeets (HostFiles.handle aliased) (HostFiles.Calm aliased) .initial steps) :
    ∀ files ∈ visited (HostFiles.handle aliased) .initial steps, files.Sound aliased := by
  have hstep : ∀ step files, HostFiles.Inv aliased files → HostFiles.Calm aliased step files →
      HostFiles.Inv aliased (files.handle aliased step) :=
    fun step files hinv hcalm => hinv.step hcalm
  intro files hfiles
  exact (invariant_visited hstep HostFiles.inv_initial hcalm files hfiles).sound

def orderlySuccession : List HostStep :=
  [.starts, .prepares 0, .binds 0, .registers 0, .stops 0, .closes 0, .removesSocket 0,
    .removesAlias 0, .starts, .prepares 1, .binds 1, .registers 1]

theorem hostFiles_sound_orderlySuccession :
    (finalState (HostFiles.handle true) .initial orderlySuccession).Sound true :=
  hostFiles_sound_of_calm true (by decide) _ (finalState_mem_visited _ _)

def earlySuccession : List HostStep :=
  [.starts, .prepares 0, .binds 0, .registers 0, .stops 0, .closes 0, .starts, .prepares 1,
    .binds 1, .registers 1, .removesSocket 0]

/-- The socket of the host that runs is gone, and nobody reaches it. -/
theorem earlySuccession_not_sound :
    ¬∀ files ∈ visited (HostFiles.handle false) .initial earlySuccession, files.Sound false := by
  intro h
  have hlast := h _ (finalState_mem_visited _ earlySuccession)
  exact absurd (hlast.reached 1 (by decide)) (by decide)

end Laborer.Terminal
