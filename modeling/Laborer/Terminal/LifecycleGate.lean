import Laborer.Library.Runs
import Mathlib.Data.Nat.Notation
import Mathlib.Logic.Function.Basic

/-!
# The lifecycle gate of the PTY host

What creates terminals and the shutdown of an empty host go through one lane, each after the one
admitted before it has settled. The requests of all sockets come in any order here.
-/

namespace Laborer.Terminal

open Library List Function

inductive LaneMethod where
  | spawn
  | restart
  | shutdownIfEmpty
deriving DecidableEq

/-- How far an operation of the lane has come; one that is refused came after an accepted
shutdown. -/
inductive LanePhase where
  | queued
  | running
  | listed (empty : Bool)
  | refused
  | failed
  | created
  | answered (empty : Bool)
deriving DecidableEq

def LanePhase.settled : LanePhase → Bool
  | .refused | .failed | .created | .answered _ => true
  | _ => false

/-- The phases that an operation can have. -/
def LaneMethod.reaches : LaneMethod → LanePhase → Bool
  | .shutdownIfEmpty, phase => phase ≠ .refused ∧ phase ≠ .created
  | _, .listed _ | _, .answered _ => false
  | _, _ => true

/-- The operations by the order of their admission, and the terminals of the host. One that is
yet to be admitted counts as queued. -/
structure PtyHostGate where
  methods : List LaneMethod
  phase : ℕ → LanePhase
  shutdownAccepted : Bool
  terminals : List String

/-- An operation is admitted, is reached by the lane, takes a step on the terminals or settles;
requests outside the lane create no terminal. -/
inductive GateStep where
  | admits (method : LaneMethod)
  | begins (number : ℕ)
  | works (number : ℕ) (terminalId : String)
  | settles (number : ℕ) (succeeds : Bool)
  | others (kept : String → Bool)

def GateStep.admitted : GateStep → Option LaneMethod
  | .admits method => some method
  | _ => none

namespace PtyHostGate

def initial (terminals : List String) : PtyHostGate where
  methods := []
  phase := fun _ => .queued
  shutdownAccepted := false
  terminals := terminals

def setPhase (number : ℕ) (phase : LanePhase) (gate : PtyHostGate) : PtyHostGate :=
  { gate with phase := Function.update gate.phase number phase }

/-- The promise that the operation is chained to has settled. -/
def reaches (gate : PtyHostGate) : ℕ → Bool
  | 0 => true
  | number + 1 => (gate.phase number).settled

def step (event : GateStep) (gate : PtyHostGate) : PtyHostGate :=
  match event with
  | .admits method => { gate with methods := gate.methods ++ [method] }
  | .others kept => { gate with terminals := gate.terminals.filter kept }
  | .begins number =>
    match gate.methods[number]?, gate.phase number with
    | some method, .queued =>
      if gate.reaches number then
        if method ≠ .shutdownIfEmpty ∧ gate.shutdownAccepted then gate.setPhase number .refused
        else gate.setPhase number .running
      else gate
    | _, _ => gate
  | .works number terminalId =>
    match gate.methods[number]?, gate.phase number with
    | some .shutdownIfEmpty, .running => gate.setPhase number (.listed (gate.terminals = []))
    | some _, .running => { gate with terminals := gate.terminals.insert terminalId }
    | _, _ => gate
  | .settles number succeeds =>
    match gate.methods[number]?, gate.phase number with
    | some .shutdownIfEmpty, .listed empty =>
      if succeeds then
        { gate.setPhase number (.answered empty) with
          shutdownAccepted := gate.shutdownAccepted || empty }
      else gate.setPhase number .failed
    | some method, .running =>
      if succeeds then
        if method = .shutdownIfEmpty then gate else gate.setPhase number .created
      else gate.setPhase number .failed
    | _, _ => gate

/-! ## Turns -/

variable {gate : PtyHostGate} {number : ℕ} {phase : LanePhase}

/-- Whatever the lane has reached, all that was admitted before it has settled. -/
def InTurn (gate : PtyHostGate) : Prop :=
  ∀ i j, i < j → gate.phase j ≠ .queued → (gate.phase i).settled = true

structure HasTurn (gate : PtyHostGate) (number : ℕ) : Prop where
  unsettled : (gate.phase number).settled = false
  earlier : ∀ i < number, (gate.phase i).settled = true

theorem InTurn.hasTurn (h : gate.InTurn) (hphase : gate.phase number = phase)
    (hunsettled : phase.settled = false) (hreached : phase ≠ .queued) : gate.HasTurn number :=
  ⟨by rw [hphase, hunsettled], fun i hlt => h i number hlt (by rwa [hphase])⟩

theorem InTurn.hasTurn_of_reaches (h : gate.InTurn) (hqueued : gate.phase number = .queued)
    (hreaches : gate.reaches number = true) : gate.HasTurn number := by
  refine ⟨by rw [hqueued]; rfl, fun i hlt => ?_⟩
  cases number with
  | zero => exact absurd hlt (Nat.not_lt_zero i)
  | succ last =>
    have hsettled : (gate.phase last).settled = true := hreaches
    rcases Nat.lt_or_eq_of_le (Nat.le_of_lt_succ hlt) with hlt | rfl
    · refine h i last hlt fun hlast => ?_
      rw [hlast] at hsettled
      cases hsettled
    · exact hsettled

theorem InTurn.queued (h : gate.InTurn) (hunsettled : (gate.phase number).settled = false) {i : ℕ}
    (hlt : number < i) : gate.phase i = .queued := by
  by_contra hreached
  exact absurd (hunsettled.symm.trans (h number i hlt hreached)) Bool.false_ne_true

theorem HasTurn.others (h : gate.HasTurn number) (hturns : gate.InTurn) {i : ℕ} (hne : i ≠ number) :
    (gate.phase i).settled = true ∨ gate.phase i = .queued := by
  rcases Nat.lt_or_gt_of_ne hne with hlt | hgt
  · exact .inl (h.earlier i hlt)
  · exact .inr (hturns.queued h.unsettled hgt)

theorem HasTurn.inTurn (h : gate.HasTurn number) (hturns : gate.InTurn) (phase : LanePhase) :
    (gate.setPhase number phase).InTurn := by
  intro i j hlt hreached
  simp only [setPhase, update_apply] at hreached ⊢
  split at hreached
  · next heq =>
    rw [if_neg (by omega)]
    exact h.earlier i (heq ▸ hlt)
  · split
    · next heq => exact absurd (hturns.queued h.unsettled (heq ▸ hlt)) hreached
    · exact hturns i j hlt hreached

theorem HasTurn.lt_of_settled (h : gate.HasTurn number) (hturns : gate.InTurn) {i : ℕ}
    (hsettled : (gate.phase i).settled = true) : i < number := by
  by_contra hge
  rcases Nat.lt_or_eq_of_le (Nat.le_of_not_lt hge) with hlt | rfl
  · rw [hturns.queued h.unsettled hlt] at hsettled
    cases hsettled
  · exact absurd (h.unsettled.symm.trans hsettled) Bool.false_ne_true

@[simp] theorem phase_setPhase (i : ℕ) :
    (gate.setPhase number phase).phase i = if i = number then phase else gate.phase i :=
  update_apply _ _ _ _

/-! ## What every state keeps -/

structure Inv (gate : PtyHostGate) : Prop where
  turns : gate.InTurn
  known : ∀ i, gate.phase i ≠ .queued →
    ∃ method, gate.methods[i]? = some method ∧ method.reaches (gate.phase i) = true
  accepted : gate.shutdownAccepted = true → gate.terminals = [] ∧
    (∀ i, gate.phase i = .running → gate.methods[i]? = some .shutdownIfEmpty) ∧
    ∃ i, gate.phase i = .answered true
  listed : ∀ i, gate.phase i = .listed true → gate.terminals = []
  answered : ∀ i, gate.phase i = .answered true →
    gate.shutdownAccepted = true ∧ ∀ j, i < j → gate.phase j ≠ .created
  refused : ∀ j, gate.phase j = .refused → ∃ i < j, gate.phase i = .answered true

theorem inv_initial (terminals : List String) : (initial terminals).Inv where
  turns := fun _ _ _ h => absurd rfl h
  known := fun _ h => absurd rfl h
  accepted := fun h => by cases h
  listed := fun _ h => by cases h
  answered := fun _ h => by cases h
  refused := fun _ h => by cases h

theorem Inv.goes (h : gate.Inv) (hturn : gate.HasTurn number) (accepted : Bool)
    {method : LaneMethod} (hmethod : gate.methods[number]? = some method)
    (hreaches : method.reaches phase = true)
    (hkept : gate.shutdownAccepted = true → accepted = true)
    (hempty : accepted = true → gate.terminals = [] ∧
      (phase = .running → method = .shutdownIfEmpty) ∧
      (gate.shutdownAccepted = true ∨ phase = .answered true))
    (hlisted : phase = .listed true → gate.terminals = [])
    (hanswered : phase = .answered true → accepted = true)
    (hcreated : phase = .created → gate.shutdownAccepted = false)
    (hrefused : phase = .refused → gate.shutdownAccepted = true) :
    Inv { gate.setPhase number phase with shutdownAccepted := accepted } := by
  -- who was answered before has settled, so that the phase that is set is not its own
  have hbefore : ∀ i, gate.phase i = .answered true →
      i < number ∧ (gate.setPhase number phase).phase i = .answered true := by
    intro i hphase
    have hlt := hturn.lt_of_settled h.turns (i := i) (by rw [hphase]; rfl)
    exact ⟨hlt, by rw [phase_setPhase, if_neg (Nat.ne_of_lt hlt), hphase]⟩
  refine ⟨hturn.inTurn h.turns phase, fun i hphase => ?_,
    fun haccepted => ⟨(hempty haccepted).1, fun i hphase => ?_, ?_⟩, fun i hphase => ?_,
    fun i hphase => ?_, fun j hphase => ?_⟩
  · simp only [phase_setPhase] at hphase ⊢
    split at hphase
    · next heq => exact ⟨method, heq ▸ hmethod, by rwa [if_pos heq]⟩
    · next hne => exact if_neg (α := LanePhase) hne ▸ h.known i hphase
  · simp only [phase_setPhase] at hphase
    split at hphase
    · next heq =>
      rw [heq, ← (hempty haccepted).2.1 hphase]
      exact hmethod
    · next hne =>
      have hothers := hturn.others h.turns hne
      rw [hphase] at hothers
      simp [LanePhase.settled] at hothers
  · rcases (hempty haccepted).2.2 with hbeforehand | hnow
    · obtain ⟨-, -, i, hphase⟩ := h.accepted hbeforehand
      exact ⟨i, (hbefore i hphase).2⟩
    · exact ⟨number, by rw [phase_setPhase, if_pos rfl, hnow]⟩
  · simp only [phase_setPhase] at hphase
    split at hphase
    · exact hlisted hphase
    · exact h.listed i hphase
  · simp only [phase_setPhase] at hphase ⊢
    split at hphase
    · next heq =>
      refine ⟨hanswered hphase, fun j hlt => ?_⟩
      rw [heq] at hlt
      rw [if_neg (Nat.ne_of_gt hlt), h.turns.queued hturn.unsettled hlt]
      nofun
    · obtain ⟨haccepted, hnone⟩ := h.answered i hphase
      refine ⟨hkept haccepted, fun j hlt => ?_⟩
      split
      · intro heq
        exact absurd ((hcreated heq).symm.trans haccepted) Bool.false_ne_true
      · exact hnone j hlt
  · simp only [phase_setPhase] at hphase
    split at hphase
    · next heq =>
      obtain ⟨-, -, i, hanswer⟩ := h.accepted (hrefused hphase)
      exact ⟨i, heq ▸ (hbefore i hanswer).1, (hbefore i hanswer).2⟩
    · obtain ⟨i, hlt, hanswer⟩ := h.refused j hphase
      exact ⟨i, hlt, (hbefore i hanswer).2⟩

theorem Inv.setTerminals (h : gate.Inv) {terminals : List String}
    (haccepted : gate.shutdownAccepted = true → terminals = [])
    (hlisted : ∀ i, gate.phase i = .listed true → terminals = []) : Inv { gate with terminals } :=
  ⟨h.turns, h.known, fun hset => ⟨haccepted hset, (h.accepted hset).2⟩, hlisted, h.answered,
    h.refused⟩

theorem Inv.step (h : gate.Inv) (event : GateStep) : (step event gate).Inv := by
  -- a phase that neither runs an operation nor answers one
  have hplain : ∀ {number phase method}, gate.HasTurn number → gate.methods[number]? = some method →
      method.reaches phase = true → phase ≠ .running → phase ≠ .listed true →
        phase ≠ .answered true → (phase = .created → gate.shutdownAccepted = false) →
          (phase = .refused → gate.shutdownAccepted = true) → (gate.setPhase number phase).Inv :=
    fun hturn hmethod hreaches hrunning hlisted hanswered hcreated hrefused =>
      h.goes hturn gate.shutdownAccepted hmethod hreaches id
        (fun haccepted => ⟨(h.accepted haccepted).1, fun heq => absurd heq hrunning,
          .inl haccepted⟩)
        (fun heq => absurd heq hlisted) (fun heq => absurd heq hanswered) hcreated hrefused
  cases event with simp only [PtyHostGate.step]
  | admits method =>
    have hkept : ∀ {i method'}, gate.methods[i]? = some method' →
        (gate.methods ++ [method])[i]? = some method' := fun hmethod =>
      (getElem?_append_left (List.getElem?_eq_some_iff.mp hmethod).1).trans hmethod
    refine ⟨h.turns, fun i hphase => ?_, fun haccepted => ?_, h.listed, h.answered, h.refused⟩
    · obtain ⟨method', hmethod, hreaches⟩ := h.known i hphase
      exact ⟨method', hkept hmethod, hreaches⟩
    · obtain ⟨hempty, hrunning, hanswer⟩ := h.accepted haccepted
      exact ⟨hempty, fun i hphase => hkept (hrunning i hphase), hanswer⟩
  | others kept =>
    refine h.setTerminals (fun haccepted => ?_) fun i hphase => ?_
    · rw [(h.accepted haccepted).1, filter_nil]
    · rw [h.listed i hphase, filter_nil]
  | begins number =>
    split
    · next method hmethod hqueued =>
      split
      · next hreaches =>
        have hturn := h.turns.hasTurn_of_reaches hqueued hreaches
        split
        · next hclosed =>
          refine hplain hturn hmethod ?_ nofun nofun nofun nofun fun _ => hclosed.2
          cases method <;> first | rfl | exact absurd rfl hclosed.1
        · next hopen =>
          refine h.goes hturn gate.shutdownAccepted hmethod (by cases method <;> rfl) id
            (fun haccepted => ⟨(h.accepted haccepted).1, fun _ => ?_, .inl haccepted⟩)
            nofun nofun nofun nofun
          exact by_contra fun hne => hopen ⟨hne, haccepted⟩
      · exact h
    · exact h
  | works number terminalId =>
    split
    · next hmethod hrunning =>
      exact h.goes (h.turns.hasTurn hrunning rfl nofun) gate.shutdownAccepted hmethod rfl id
        (fun haccepted => ⟨(h.accepted haccepted).1, nofun, .inl haccepted⟩)
        (fun heq => by simpa using heq) nofun nofun nofun
    · next method hother hmethod hrunning =>
      have hturn := h.turns.hasTurn hrunning rfl nofun
      refine h.setTerminals (fun haccepted => ?_) fun i hphase => ?_
      · -- no terminal is created after an accepted shutdown
        have hshutdown := (h.accepted haccepted).2.1 number hrunning
        rw [hmethod] at hshutdown
        exact absurd (Option.some.inj hshutdown) hother
      · -- nor while the host is seen as empty
        have hne : i ≠ number := fun heq => by
          rw [heq, hrunning] at hphase
          cases hphase
        have hothers := hturn.others h.turns hne
        rw [hphase] at hothers
        simp [LanePhase.settled] at hothers
    · exact h
  | settles number succeeds =>
    split
    · next empty hmethod hlisted =>
      have hturn := h.turns.hasTurn hlisted rfl nofun
      split
      · refine h.goes hturn _ hmethod rfl (fun haccepted =>
          Bool.or_eq_true_iff.mpr (.inl haccepted))
          (fun haccepted => ⟨?_, nofun, ?_⟩) nofun (fun heq => ?_) nofun nofun
        · rcases Bool.or_eq_true_iff.mp haccepted with haccepted | rfl
          · exact (h.accepted haccepted).1
          · exact h.listed number hlisted
        · exact (Bool.or_eq_true_iff.mp haccepted).imp_right (congrArg LanePhase.answered)
        · cases heq
          exact Bool.or_true _
      · exact hplain hturn hmethod rfl nofun nofun nofun nofun nofun
    · next method hmethod hrunning =>
      have hturn := h.turns.hasTurn hrunning rfl nofun
      split
      · split
        · exact h
        · next hother =>
          refine hplain hturn hmethod ?_ nofun nofun nofun (fun _ => ?_) nofun
          · cases method <;> first | rfl | exact absurd rfl hother
          · refine Bool.eq_false_iff.mpr fun haccepted => ?_
            have hshutdown := (h.accepted haccepted).2.1 number hrunning
            rw [hmethod] at hshutdown
            exact hother (Option.some.inj hshutdown)
      · exact hplain hturn hmethod (by cases method <;> rfl) nofun nofun nofun nofun nofun
    · exact h

/-! ## The lane -/

/-- What was admitted goes one at a time and in its order: the next one runs, whatever the others
came to, unless it would create a terminal after an accepted shutdown. What runs ends, also when it
fails. A shutdown is accepted just when it finds no terminal, and none is created then. -/
structure Sound (events : List GateStep) (gate : PtyHostGate) : Prop where
  admitted : gate.methods = events.filterMap GateStep.admitted
  inTurn : gate.InTurn
  begins : ∀ number method, gate.methods[number]? = some method → gate.phase number = .queued →
    (∀ i < number, (gate.phase i).settled = true) →
      (step (.begins number) gate).phase number =
        if method ≠ .shutdownIfEmpty ∧ gate.shutdownAccepted then .refused else .running
  works : ∀ number method terminalId, gate.methods[number]? = some method →
    gate.phase number = .running →
      if method = .shutdownIfEmpty then
        (step (.works number terminalId) gate).phase number = .listed (gate.terminals = [])
      else terminalId ∈ (step (.works number terminalId) gate).terminals ∧
        (step (.settles number true) gate).phase number = .created
  answers : ∀ number empty, gate.phase number = .listed empty →
    (step (.settles number true) gate).phase number = .answered empty
  fails : ∀ number, gate.phase number ≠ .queued → (gate.phase number).settled = false →
    (step (.settles number false) gate).phase number = .failed
  refused : ∀ number, gate.phase number = .refused → ∃ i < number, gate.phase i = .answered true
  emptied : ∀ number, gate.phase number = .answered true → gate.terminals = [] ∧
    ∀ i, number < i → gate.phase i ≠ .created

theorem methods_step (event : GateStep) :
    (step event gate).methods = gate.methods ++ event.admitted.toList := by
  cases event with simp only [step, GateStep.admitted, Option.toList, append_nil]
  | _ =>
    repeat' split
    all_goals rfl

theorem methods_finalState (events : List GateStep) :
    (finalState step gate events).methods = gate.methods ++ events.filterMap GateStep.admitted := by
  induction events generalizing gate with
  | nil => exact (append_nil _).symm
  | cons event events ih =>
    refine ih.trans ?_
    rw [methods_step, append_assoc, filterMap_cons]
    cases event.admitted <;> rfl

theorem Inv.method_of_listed (h : gate.Inv) {empty : Bool}
    (hlisted : gate.phase number = .listed empty) :
    gate.methods[number]? = some .shutdownIfEmpty := by
  obtain ⟨method, hmethod, hreaches⟩ := h.known number (by rw [hlisted]; nofun)
  rw [hlisted] at hreaches
  cases method with
  | shutdownIfEmpty => exact hmethod
  | _ => cases hreaches

/-- **The lane is sound** after any requests in any order, whatever fails or takes long. -/
theorem gate_sound (terminals : List String) (events : List GateStep) :
    (finalState step (initial terminals) events).Sound events := by
  have h : (finalState step (initial terminals) events).Inv :=
    invariant_finalState (fun event gate h _ => h.step event) (inv_initial terminals)
      (runMeets_true _ events)
  have hadmitted : (finalState step (initial terminals) events).methods = _ :=
    methods_finalState events
  generalize finalState step (initial terminals) events = gate at h hadmitted
  refine ⟨hadmitted, h.turns, fun number method hmethod hqueued hearlier => ?_,
    fun number method terminalId hmethod hrunning => ?_, fun number empty hlisted => ?_,
    fun number hreached hunsettled => ?_, h.refused, fun number hphase => ?_⟩
  · have hreaches : gate.reaches number = true := by
      cases number with
      | zero => rfl
      | succ last => exact hearlier last (Nat.lt_succ_self last)
    simp only [step, hmethod, hqueued, if_pos hreaches]
    split <;> simp
  · cases method <;> simp [step, hmethod, hrunning]
  · simp [step, h.method_of_listed hlisted, hlisted]
  · obtain ⟨method, hmethod, -⟩ := h.known number hreached
    cases hphase : gate.phase number with
    | queued => exact absurd hphase hreached
    | running => cases method <;> simp [step, hmethod, hphase]
    | listed empty => simp [step, h.method_of_listed hphase, hphase]
    | _ =>
      rw [hphase] at hunsettled
      cases hunsettled
  · obtain ⟨haccepted, hnone⟩ := h.answered number hphase
    exact ⟨(h.accepted haccepted).1, hnone⟩

/-- A spawn, a shutdown that finds its terminal and a restart that fails; once the terminal is
removed a shutdown is accepted, and the spawn behind it refused. -/
def shutdownRun : List GateStep :=
  [.admits .spawn, .begins 0, .admits .shutdownIfEmpty, .begins 1, .works 0 "t", .admits .restart,
    .settles 0 true, .begins 1, .works 1 "", .settles 1 true, .begins 2, .settles 2 false,
    .admits .shutdownIfEmpty, .admits .spawn, .others fun _ => false, .begins 3, .works 3 "",
    .settles 3 true, .begins 4]

theorem gate_sound_shutdownRun :
    let gate := finalState step (initial []) shutdownRun
    gate.Sound shutdownRun ∧ (range 5).map gate.phase =
      [.created, .answered false, .failed, .answered true, .refused] :=
  ⟨gate_sound [] shutdownRun, by decide⟩

end PtyHostGate

end Laborer.Terminal
