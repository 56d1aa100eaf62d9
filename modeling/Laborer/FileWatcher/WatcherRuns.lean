import Laborer.FileWatcher.WatcherManager

/-!
# Runs of the watcher manager

An update closes the old watcher, waits, and writes its subscription back without looking
what has become of it. As long as no call comes for a subscription whose update is still
waiting, every open watcher is the one of a listed subscription or of the call that made it.
-/

namespace Laborer.FileWatcher

open Library List Option OrderedMap

namespace WatcherManager

variable {manager : WatcherManager}

def Busy (id : ℕ) (manager : WatcherManager) : Prop := ∃ call ∈ manager.calls, call.id = id

instance (id : ℕ) (manager : WatcherManager) : Decidable (manager.Busy id) :=
  inferInstanceAs (Decidable (∃ call ∈ manager.calls, call.id = id))

/-- An unsubscribe is for an id that was handed out, and no call comes for a listed
subscription while its update waits. -/
def Calm (event : WatcherEvent) (manager : WatcherManager) : Prop :=
  match event with
  | .unsubscribe id => id ≤ manager.nextId ∧ ¬manager.Busy id
  | .updateIgnore id _ => id ∈ manager.subscriptions → ¬manager.Busy id
  | _ => True

instance (event : WatcherEvent) (manager : WatcherManager) : Decidable (Calm event manager) :=
  match event with
  | .unsubscribe id => inferInstanceAs (Decidable (id ≤ manager.nextId ∧ ¬manager.Busy id))
  | .updateIgnore id _ =>
    inferInstanceAs (Decidable (id ∈ manager.subscriptions → ¬manager.Busy id))
  | .subscribe .. => isTrue trivial
  | .settles .. => isTrue trivial
  | .finishes .. => isTrue trivial
  | .occurs .. => isTrue trivial

/-! ## The invariant -/

/-- An open watcher that was made with what the call has asked for, or the subscription
keeps. -/
structure OpenWatcher (number id : ℕ) (path : String) (recursive : Bool) (ignore : List String)
    (watchers : List Watcher) : Prop where
  made : watchers[number]? =
    some { subscriptionId := id, path := path, recursive := recursive, ignore := ignore,
           isOpen := true }

/-- The watcher of a call, once the backend has made one. -/
structure CallKept (call : PendingCall) (manager : WatcherManager) : Prop where
  object : ∃ managed, manager.objects.get? call.id = some managed ∧ managed.path = call.path ∧
    managed.recursive = call.recursive ∧ managed.ignoreEntries = call.ignore
  watcher : ∀ number, call.outcome = some (some number) →
    OpenWatcher number call.id call.path call.recursive call.ignore manager.watchers
  last : ∀ handle, call.outcome = some handle →
    manager.lastCreations.get? call.id = some handle.isSome

structure Settled (id : ℕ) (managed : ManagedSubscription) (manager : WatcherManager) : Prop where
  watcher : ∀ number, managed.watchSubscription = some number →
    OpenWatcher number id managed.path managed.recursive managed.ignoreEntries manager.watchers
  last : manager.lastCreations.get? id = some managed.watchSubscription.isSome

/-- Who has the watcher: a call that waits, or a subscription for which none does. -/
def Owned (number id : ℕ) (manager : WatcherManager) : Prop :=
  (∃ call ∈ manager.calls, call.id = id ∧ call.outcome = some (some number)) ∨
    id ∈ manager.subscriptions ∧ ¬manager.Busy id ∧
      ∃ managed, manager.objects.get? id = some managed ∧ managed.watchSubscription = some number

structure Inv (manager : WatcherManager) : Prop where
  issued : ∀ id managed, manager.objects.get? id = some managed → id ≤ manager.nextId
  calls : ∀ call ∈ manager.calls, CallKept call manager
  oneCall : (manager.calls.map PendingCall.id).Nodup
  listed : ∀ id ∈ manager.subscriptions, ∃ managed, manager.objects.get? id = some managed ∧
    (¬manager.Busy id → Settled id managed manager)
  owned : ∀ number watcher, manager.watchers[number]? = some watcher → watcher.isOpen = true →
    manager.Owned number watcher.subscriptionId
  gone : ∀ id ∈ manager.unsubscribed, id ∉ manager.subscriptions ∧ ¬manager.Busy id ∧
    id ≤ manager.nextId
  published : ∀ entry ∈ manager.fileEvents, entry.2 = false

theorem inv_initial : initial.Inv where
  issued := fun _ _ h => by cases h
  calls := fun _ h => absurd h List.not_mem_nil
  oneCall := List.nodup_nil
  listed := fun _ h => absurd h List.not_mem_nil
  owned := fun _ _ h => by cases h
  gone := fun _ h => absurd h List.not_mem_nil
  published := fun _ h => absurd h List.not_mem_nil

/-! ## Watchers -/

theorem getElem?_close (handle : Option ℕ) (watchers : List Watcher) (number : ℕ) :
    (close handle watchers)[number]? = (watchers[number]?).map fun watcher =>
      if handle = some number then { watcher with isOpen := false } else watcher := by
  cases handle with
  | none => simp [close]
  | some closed =>
    rw [close, getElem?_modify]
    cases watchers[number]? with
    | none => rfl
    | some watcher => simp

theorem open_of_close {handle : Option ℕ} {watchers : List Watcher} {number : ℕ}
    {watcher : Watcher} (h : (close handle watchers)[number]? = some watcher)
    (hopen : watcher.isOpen = true) : watchers[number]? = some watcher ∧ handle ≠ some number := by
  rw [getElem?_close] at h
  obtain ⟨earlier, hearlier, heq⟩ := map_eq_some_iff.mp h
  split at heq
  · rw [← heq] at hopen
    exact absurd hopen Bool.false_ne_true
  · next hother =>
    rw [← heq]
    exact ⟨hearlier, hother⟩

section OpenWatcher

variable {number id : ℕ} {path : String} {recursive : Bool} {ignore : List String}
variable {watchers : List Watcher}

theorem OpenWatcher.close {handle : Option ℕ}
    (h : OpenWatcher number id path recursive ignore watchers) (hother : handle ≠ some number) :
    OpenWatcher number id path recursive ignore (close handle watchers) := by
  refine ⟨?_⟩
  rw [getElem?_close, h.made]
  exact congrArg some (if_neg hother)

theorem OpenWatcher.append (h : OpenWatcher number id path recursive ignore watchers)
    (watcher : Watcher) : OpenWatcher number id path recursive ignore (watchers ++ [watcher]) := by
  refine ⟨?_⟩
  have hlength := (List.getElem?_eq_some_iff.mp h.made).1
  rw [getElem?_append_left hlength]
  exact h.made

end OpenWatcher

/-- Of one subscription no watcher is open any more, those of the others stay. -/
structure ClosedOnly (id : ℕ) (before after : List Watcher) : Prop where
  opened : ∀ (number : ℕ) (watcher : Watcher), after[number]? = some watcher →
    watcher.isOpen = true → before[number]? = some watcher ∧ watcher.subscriptionId ≠ id
  kept : ∀ number other path recursive ignore, other ≠ id →
    OpenWatcher number other path recursive ignore before →
      OpenWatcher number other path recursive ignore after

theorem Inv.closedOnly (h : manager.Inv) {id : ℕ} {existing : ManagedSubscription}
    (hlisted : id ∈ manager.subscriptions) (hbusy : ¬manager.Busy id)
    (hobject : manager.objects.get? id = some existing) :
    ClosedOnly id manager.watchers (close existing.watchSubscription manager.watchers) := by
  obtain ⟨managed, hmanaged, hsettled⟩ := h.listed id hlisted
  obtain rfl : existing = managed := some.inj (hobject.symm.trans hmanaged)
  have hsettled := hsettled hbusy
  constructor
  · intro number watcher hwatcher hopen
    obtain ⟨hbefore, hother⟩ := open_of_close hwatcher hopen
    refine ⟨hbefore, fun hsame => ?_⟩
    rcases h.owned number watcher hbefore hopen with ⟨call, hcall, hid, -⟩ |
      ⟨-, -, owner, howner, hhandle⟩
    · exact hbusy ⟨call, hcall, hid.trans hsame⟩
    · rw [hsame] at howner
      obtain rfl : existing = owner := some.inj (hobject.symm.trans howner)
      exact hother hhandle
  · intro number other path recursive ignore hother hopen
    apply hopen.close
    intro hhandle
    have hmade := (hsettled.watcher number hhandle).made
    rw [hopen.made] at hmade
    exact hother (congrArg Watcher.subscriptionId (some.inj hmade))

/-! ## Requests to the backend -/

/-- A watcher is asked for where no call waits and no watcher of the subscription is open. -/
theorem Inv.request (h : manager.Inv) {id nextId : ℕ} {managed : ManagedSubscription}
    {watchers : List Watcher} (hbusy : ¬manager.Busy id) (hgone : id ∉ manager.unsubscribed)
    (hid : id ≤ nextId) (hnext : manager.nextId ≤ nextId)
    (hclosed : ClosedOnly id manager.watchers watchers) :
    ({ manager with nextId := nextId, watchers := watchers }.createWatchSubscription id
      managed).Inv := by
  have hother : ∀ other, other ≠ id →
      (manager.objects.set id managed).get? other = manager.objects.get? other := by
    intro other hne
    rw [get?_set, if_neg (Ne.symm hne)]
  have hbusy' : ∀ other, other ≠ id →
      ({ manager with nextId := nextId, watchers := watchers }.createWatchSubscription id
        managed).Busy other → manager.Busy other := by
    rintro other hne ⟨call, hcall, heq⟩
    rcases mem_append.mp hcall with hcall | hcall
    · exact ⟨call, hcall, heq⟩
    · rw [mem_singleton.mp hcall] at heq
      exact absurd heq.symm hne
  constructor
  case issued =>
    intro other object hobject
    have hobject : (manager.objects.set id managed).get? other = some object := hobject
    by_cases hne : other = id
    · rw [hne]
      exact hid
    · rw [hother other hne] at hobject
      exact Nat.le_trans (h.issued other object hobject) hnext
  case calls =>
    intro call hcall
    rcases mem_append.mp hcall with hcall | hcall
    · have hne : call.id ≠ id := fun heq => hbusy ⟨call, hcall, heq⟩
      have hold := h.calls call hcall
      refine ⟨?_, fun number hnumber => hclosed.kept _ _ _ _ _ hne (hold.watcher number hnumber),
        hold.last⟩
      obtain ⟨object, hobject, hrest⟩ := hold.object
      exact ⟨object, (hother call.id hne).trans hobject, hrest⟩
    · obtain rfl := mem_singleton.mp hcall
      refine ⟨⟨managed, ?_, rfl, rfl, rfl⟩, (fun _ hnone => by cases hnone),
        (fun _ hnone => by cases hnone)⟩
      have hself : (manager.objects.set id managed).get? id = some managed := by
        rw [get?_set, if_pos rfl]
      exact hself
  case oneCall =>
    show ((manager.calls ++ [_]).map PendingCall.id).Nodup
    rw [map_append]
    refine nodup_append.mpr ⟨h.oneCall, nodup_singleton _, ?_⟩
    intro other hcall last hlast heq
    obtain ⟨call, hmem, hid⟩ := mem_map.mp hcall
    rw [map_singleton, mem_singleton] at hlast
    exact hbusy ⟨call, hmem, hid.trans (heq.trans hlast)⟩
  case listed =>
    intro other hlisted
    obtain ⟨object, hobject, hsettled⟩ := h.listed other hlisted
    by_cases hne : other = id
    · have hself : (manager.objects.set id managed).get? other = some managed := by
        rw [get?_set, if_pos hne.symm]
      refine ⟨managed, hself, fun hfree => absurd ?_ hfree⟩
      exact ⟨_, mem_append_right _ (mem_singleton_self _), hne.symm⟩
    · refine ⟨object, (hother other hne).trans hobject, fun hfree => ?_⟩
      have hfree' : ¬manager.Busy other := by
        rintro ⟨call, hcall, heq⟩
        exact hfree ⟨call, mem_append_left _ hcall, heq⟩
      have hold := hsettled hfree'
      exact ⟨fun number hnumber => hclosed.kept _ _ _ _ _ hne (hold.watcher number hnumber),
        hold.last⟩
  case owned =>
    intro number watcher hwatcher hisOpen
    obtain ⟨hbefore, hne⟩ := hclosed.opened number watcher hwatcher hisOpen
    rcases h.owned number watcher hbefore hisOpen with ⟨call, hcall, hcallKept⟩ |
      ⟨hlisted, hfree, object, hobject, hhandle⟩
    · exact .inl ⟨call, mem_append_left _ hcall, hcallKept⟩
    · exact .inr ⟨hlisted, fun hnow => hfree (hbusy' _ hne hnow), object,
        (hother _ hne).trans hobject, hhandle⟩
  case gone =>
    intro other hother'
    obtain ⟨hlisted, hfree, hissued⟩ := h.gone other hother'
    have hne : other ≠ id := fun heq => hgone (heq ▸ hother')
    exact ⟨hlisted, fun hnow => hfree (hbusy' other hne hnow), Nat.le_trans hissued hnext⟩
  case published => exact h.published

theorem Inv.subscribe (h : manager.Inv) (path : String) (recursive : Option Bool)
    (ignoreGlobs : Option (List String)) : (manager.subscribe path recursive ignoreGlobs).Inv := by
  have hfresh : ∀ id, id ≤ manager.nextId → id ≠ manager.nextId + 1 := by
    intro id hid
    omega
  have hbusy : ¬manager.Busy (manager.nextId + 1) := by
    rintro ⟨call, hcall, hid⟩
    obtain ⟨managed, hmanaged, -⟩ := (h.calls call hcall).object
    exact hfresh _ (h.issued _ managed hmanaged) hid
  refine h.request hbusy (fun hgone => hfresh _ (h.gone _ hgone).2.2 rfl) (Nat.le_refl _)
    (Nat.le_succ _)
    ⟨fun number watcher hwatcher hopen => ⟨hwatcher, ?_⟩, fun _ _ _ _ _ _ hopen => hopen⟩
  rcases h.owned number watcher hwatcher hopen with ⟨call, hcall, hid, -⟩ |
    ⟨-, -, managed, hmanaged, -⟩
  · exact fun heq => hbusy ⟨call, hcall, hid.trans heq⟩
  · exact hfresh _ (h.issued _ managed hmanaged)

theorem Inv.updateIgnore (h : manager.Inv) {id : ℕ} (ignoreGlobs : List String)
    (hcalm : id ∈ manager.subscriptions → ¬manager.Busy id) :
    (manager.updateIgnore id ignoreGlobs).Inv := by
  unfold WatcherManager.updateIgnore
  split
  · next hlisted =>
    split
    · exact h
    · next existing hexisting =>
      have hclosed := h.closedOnly hlisted (hcalm hlisted) hexisting
      exact h.request (hcalm hlisted) (fun hgone => (h.gone id hgone).1 hlisted)
        (h.issued id existing hexisting) (Nat.le_refl _) hclosed
  · exact h

theorem Inv.unsubscribe (h : manager.Inv) {id : ℕ} (hid : id ≤ manager.nextId)
    (hbusy : ¬manager.Busy id) : (manager.unsubscribe id).Inv := by
  unfold WatcherManager.unsubscribe
  split
  · next hlisted =>
    split
    · next hnone =>
      obtain ⟨managed, hmanaged, -⟩ := h.listed id hlisted
      rw [hnone] at hmanaged
      cases hmanaged
    · next existing hexisting =>
      have hclosed := h.closedOnly hlisted hbusy hexisting
      constructor
      case issued => exact h.issued
      case calls =>
        intro call hcall
        have hold := h.calls call hcall
        have hne : call.id ≠ id := fun heq => hbusy ⟨call, hcall, heq⟩
        exact ⟨hold.object,
          fun number hnumber => hclosed.kept _ _ _ _ _ hne (hold.watcher number hnumber), hold.last⟩
      case oneCall => exact h.oneCall
      case listed =>
        intro other hother
        obtain ⟨hmem, hne⟩ := mem_filter.mp hother
        obtain ⟨managed, hmanaged, hsettled⟩ := h.listed other hmem
        refine ⟨managed, hmanaged, fun hfree => ?_⟩
        have hold := hsettled hfree
        exact ⟨fun number hnumber =>
          hclosed.kept _ _ _ _ _ (by simpa using hne) (hold.watcher number hnumber), hold.last⟩
      case owned =>
        intro number watcher hwatcher hisOpen
        obtain ⟨hbefore, hne⟩ := hclosed.opened number watcher hwatcher hisOpen
        rcases h.owned number watcher hbefore hisOpen with hcall | ⟨hmem, hrest⟩
        · exact .inl hcall
        · exact .inr ⟨mem_filter.mpr ⟨hmem, by simpa using hne⟩, hrest⟩
      case gone =>
        intro other hother
        rcases mem_append.mp hother with hbefore | hnow
        · obtain ⟨hmem, hrest⟩ := h.gone other hbefore
          exact ⟨fun hfiltered => hmem (mem_filter.mp hfiltered).1, hrest⟩
        · rw [mem_singleton.mp hnow]
          exact ⟨fun hfiltered => by simpa using (mem_filter.mp hfiltered).2, hbusy, hid⟩
      case published => exact h.published
  · next hunlisted =>
    have hcalls : ∀ call ∈ manager.calls,
        CallKept call { manager with unsubscribed := manager.unsubscribed ++ [id] } := by
      intro call hcall
      have hold := h.calls call hcall
      exact ⟨hold.object, hold.watcher, hold.last⟩
    have hlisted : ∀ other ∈ manager.subscriptions, ∃ managed,
        manager.objects.get? other = some managed ∧ (¬manager.Busy other →
          Settled other managed { manager with unsubscribed := manager.unsubscribed ++ [id] }) := by
      intro other hother
      obtain ⟨managed, hmanaged, hsettled⟩ := h.listed other hother
      exact ⟨managed, hmanaged, fun hfree => ⟨(hsettled hfree).watcher, (hsettled hfree).last⟩⟩
    refine ⟨h.issued, hcalls, h.oneCall, hlisted, h.owned, ?_, h.published⟩
    intro other hother
    rcases mem_append.mp hother with hbefore | hnow
    · exact h.gone other hbefore
    · rw [mem_singleton.mp hnow]
      exact ⟨hunlisted, hbusy, hid⟩

/-! ## What the backend answers -/

section Calls

variable {number : ℕ} {call : PendingCall}

theorem Inv.eq_of_id (h : manager.Inv) {call call' : PendingCall} (hcall : call ∈ manager.calls)
    (hcall' : call' ∈ manager.calls) (hid : call'.id = call.id) : call' = call :=
  inj_on_of_nodup_map h.oneCall hcall' hcall hid

theorem map_id_set (call' : PendingCall) (hcall : manager.calls[number]? = some call)
    (hid : call'.id = call.id) :
    (manager.calls.set number call').map PendingCall.id = manager.calls.map PendingCall.id := by
  rw [map_set, hid]
  apply ext_getElem?
  intro index
  rw [getElem?_set]
  split
  · next heq =>
    subst heq
    have hlength := (List.getElem?_eq_some_iff.mp hcall).1
    rw [length_map, if_pos hlength, getElem?_map, hcall]
    rfl
  · rfl

theorem busy_iff (id : ℕ) : manager.Busy id ↔ id ∈ manager.calls.map PendingCall.id := by
  rw [Busy, List.mem_map]

def answered (number : ℕ) (call : PendingCall) (handle : Option ℕ) (watchers : List Watcher)
    (manager : WatcherManager) : WatcherManager :=
  { manager with
    calls := manager.calls.set number { call with outcome := some handle }
    watchers := watchers
    lastCreations := manager.lastCreations.set call.id handle.isSome }

theorem Inv.answered (h : manager.Inv) (hcall : manager.calls[number]? = some call)
    (hwaits : call.outcome = none) {handle : Option ℕ} {watchers : List Watcher}
    (hkept : ∀ index id path recursive ignore,
      OpenWatcher index id path recursive ignore manager.watchers →
        OpenWatcher index id path recursive ignore watchers) (hnew : ∀ index, handle = some index →
      OpenWatcher index call.id call.path call.recursive call.ignore watchers)
    (hopened : ∀ (index : ℕ) (watcher : Watcher), watchers[index]? = some watcher →
      manager.watchers[index]? = some watcher ∨
        handle = some index ∧ watcher.subscriptionId = call.id) :
    (manager.answered number call handle watchers).Inv := by
  have hmem := mem_of_getElem? hcall
  have hmap : (manager.answered number call handle watchers).calls.map PendingCall.id =
      manager.calls.map PendingCall.id := map_id_set { call with outcome := some handle } hcall rfl
  have hbusy : ∀ id, (manager.answered number call handle watchers).Busy id ↔ manager.Busy id :=
    fun id => by rw [busy_iff, busy_iff, hmap]
  have hlast : ∀ id, id ≠ call.id →
      (manager.answered number call handle watchers).lastCreations.get? id =
        manager.lastCreations.get? id := by
    intro id hne
    rw [WatcherManager.answered, get?_set, if_neg (Ne.symm hne)]
  -- a call that was answered before is another one, and stays
  have hstays : ∀ other ∈ manager.calls, other.outcome ≠ none →
      other ∈ (manager.answered number call handle watchers).calls := by
    intro other hother houtcome
    obtain ⟨index, hindex⟩ := mem_iff_getElem?.mp hother
    have hne : number ≠ index := by
      rintro rfl
      obtain rfl : call = other := some.inj (hcall.symm.trans hindex)
      exact houtcome hwaits
    apply mem_of_getElem? (i := index)
    rw [WatcherManager.answered, getElem?_set_ne hne]
    exact hindex
  constructor
  case issued => exact h.issued
  case calls =>
    intro other hother
    rcases mem_or_eq_of_mem_set hother with hold | rfl
    · have hkeptCall := h.calls other hold
      refine ⟨hkeptCall.object, fun index hindex =>
        hkept _ _ _ _ _ (hkeptCall.watcher index hindex),
        fun outcome houtcome => ?_⟩
      have hne : other.id ≠ call.id := by
        intro hid
        rw [h.eq_of_id hmem hold hid, hwaits] at houtcome
        cases houtcome
      rw [hlast other.id hne]
      exact hkeptCall.last outcome houtcome
    · refine ⟨(h.calls call hmem).object, fun index hindex => hnew index (some.inj hindex),
        fun outcome houtcome => ?_⟩
      rw [WatcherManager.answered, get?_set, if_pos rfl, some.inj houtcome]
  case oneCall =>
    rw [hmap]
    exact h.oneCall
  case listed =>
    intro id hid
    obtain ⟨managed, hmanaged, hsettled⟩ := h.listed id hid
    refine ⟨managed, hmanaged, fun hfree => ?_⟩
    rw [hbusy] at hfree
    have hold := hsettled hfree
    refine ⟨fun index hindex => hkept _ _ _ _ _ (hold.watcher index hindex), ?_⟩
    rw [hlast id fun heq => hfree ⟨call, hmem, heq.symm⟩]
    exact hold.last
  case owned =>
    intro index watcher hwatcher hisOpen
    rcases hopened index watcher hwatcher with hbefore | ⟨hhandle, hid⟩
    · rcases h.owned index watcher hbefore hisOpen with ⟨other, hother, hid, houtcome⟩ |
        ⟨hlisted, hfree, hobject⟩
      · refine .inl ⟨other, hstays other hother ?_, hid, houtcome⟩
        rw [houtcome]
        exact some_ne_none _
      · exact .inr ⟨hlisted, fun hnow => hfree ((hbusy _).mp hnow), hobject⟩
    · refine .inl ⟨{ call with outcome := some handle }, ?_, hid.symm, congrArg some hhandle⟩
      exact mem_set (List.getElem?_eq_some_iff.mp hcall).1 _
  case gone =>
    intro id hid
    obtain ⟨hlisted, hfree, hissued⟩ := h.gone id hid
    exact ⟨hlisted, fun hnow => hfree ((hbusy id).mp hnow), hissued⟩
  case published => exact h.published

theorem Inv.settles (h : manager.Inv) (preferredBackend : FileWatcherBackendName) (number : ℕ)
    (native fs : DriverOutcome) : (manager.settles preferredBackend number native fs).Inv := by
  have hnothing : ∀ call, manager.calls[number]? = some call → call.outcome = none →
      (manager.answered number call none manager.watchers).Inv := by
    intro call hcall hwaits
    exact h.answered hcall hwaits (fun _ _ _ _ _ hopen => hopen) (fun _ hnone => by cases hnone)
      fun _ _ hwatcher => .inl hwatcher
  unfold WatcherManager.settles
  split
  · exact h
  · next call hcall =>
    split
    · exact h
    · next hwaits =>
      split
      · refine h.answered hcall hwaits (fun _ _ _ _ _ hopen => hopen.append _) ?_ ?_
        · intro index hindex
          obtain rfl := some.inj hindex
          exact ⟨getElem?_concat_length⟩
        · intro index watcher hwatcher
          rw [getElem?_append] at hwatcher
          split at hwatcher
          · exact .inl hwatcher
          · next hlength =>
            obtain ⟨hzero, hlast⟩ := List.getElem?_eq_some_iff.mp hwatcher
            have hindex : manager.watchers.length = index := by
              rw [length_singleton] at hzero
              omega
            refine .inr ⟨congrArg some hindex, ?_⟩
            rw [getElem_singleton] at hlast
            rw [← hlast]
      · exact hnothing call hcall hwaits

/-! ## The end of a call -/

theorem Inv.mem_eraseIdx_iff (h : manager.Inv) (hcall : manager.calls[number]? = some call)
    (other : PendingCall) :
    other ∈ manager.calls.eraseIdx number ↔ other ∈ manager.calls ∧ other.id ≠ call.id := by
  rw [mem_eraseIdx_iff_getElem?]
  constructor
  · rintro ⟨index, hne, hother⟩
    refine ⟨mem_of_getElem? hother, fun hid => hne ?_⟩
    have hlength := (List.getElem?_eq_some_iff.mp hother).1
    have hsame : (manager.calls.map PendingCall.id)[index]? =
        (manager.calls.map PendingCall.id)[number]? := by
      rw [getElem?_map, getElem?_map, hother, hcall]
      exact congrArg some hid
    exact (getElem?_inj (by rwa [length_map]) h.oneCall).mp hsame
  · rintro ⟨hother, hid⟩
    obtain ⟨index, hindex⟩ := mem_iff_getElem?.mp hother
    refine ⟨index, ?_, hindex⟩
    rintro rfl
    obtain rfl : call = other := some.inj (hcall.symm.trans hindex)
    exact hid rfl

def returned (number id : ℕ) (managed : ManagedSubscription) (handle : Option ℕ)
    (manager : WatcherManager) : WatcherManager :=
  { manager with
    objects := manager.objects.set id { managed with watchSubscription := handle }
    subscriptions :=
      if id ∈ manager.subscriptions then manager.subscriptions else manager.subscriptions ++ [id]
    calls := manager.calls.eraseIdx number }

theorem mem_returned (number id : ℕ) (managed : ManagedSubscription) (handle : Option ℕ)
    (other : ℕ) : other ∈ (manager.returned number id managed handle).subscriptions ↔
      other ∈ manager.subscriptions ∨ other = id := by
  unfold returned
  dsimp only
  split
  · next hlisted =>
    refine ⟨.inl, fun h => h.elim (fun hmem => hmem) fun heq => ?_⟩
    rwa [heq]
  · rw [mem_append, mem_singleton]

theorem Inv.returned (h : manager.Inv) (hcall : manager.calls[number]? = some call)
    {handle : Option ℕ} (houtcome : call.outcome = some handle) {managed : ManagedSubscription}
    (hobject : manager.objects.get? call.id = some managed) :
    (manager.returned number call.id managed handle).Inv := by
  have hmem := mem_of_getElem? hcall
  have hkeptCall := h.calls call hmem
  have hself : (manager.returned number call.id managed handle).objects.get? call.id =
      some { managed with watchSubscription := handle } := by
    rw [WatcherManager.returned, get?_set, if_pos rfl]
  have hobjects : ∀ id, id ≠ call.id →
      (manager.returned number call.id managed handle).objects.get? id =
        manager.objects.get? id := by
    intro id hne
    rw [WatcherManager.returned, get?_set, if_neg (Ne.symm hne)]
  have hbusy : ∀ id, id ≠ call.id → manager.Busy id →
      (manager.returned number call.id managed handle).Busy id := by
    rintro id hne ⟨other, hother, rfl⟩
    exact ⟨other, (h.mem_eraseIdx_iff hcall other).mpr ⟨hother, hne⟩, rfl⟩
  have hfewer : ∀ id, (manager.returned number call.id managed handle).Busy id →
      manager.Busy id ∧ id ≠ call.id := by
    rintro id ⟨other, hother, rfl⟩
    obtain ⟨hold, hne⟩ := (h.mem_eraseIdx_iff hcall other).mp hother
    exact ⟨⟨other, hold, rfl⟩, hne⟩
  constructor
  case issued =>
    intro id object hget
    by_cases hne : id = call.id
    · rw [hne]
      exact h.issued call.id managed hobject
    · rw [hobjects id hne] at hget
      exact h.issued id object hget
  case calls =>
    intro other hother
    obtain ⟨hold, hne⟩ := (h.mem_eraseIdx_iff hcall other).mp hother
    have hkept := h.calls other hold
    obtain ⟨object, hget, hrest⟩ := hkept.object
    exact ⟨⟨object, (hobjects other.id hne).trans hget, hrest⟩, hkept.watcher, hkept.last⟩
  case oneCall =>
    have hsublist : List.Sublist ((manager.calls.eraseIdx number).map PendingCall.id)
        (manager.calls.map PendingCall.id) := (eraseIdx_sublist _ _).map _
    exact List.Nodup.sublist hsublist h.oneCall
  case listed =>
    intro id hid
    by_cases hne : id = call.id
    · subst hne
      refine ⟨_, hself, fun _ => ⟨fun index hindex => ?_, hkeptCall.last handle houtcome⟩⟩
      obtain ⟨object, hget, hpath, hrecursive, hignore⟩ := hkeptCall.object
      obtain rfl : managed = object := some.inj (hobject.symm.trans hget)
      have hopen := hkeptCall.watcher index (by rw [houtcome]; exact congrArg some hindex)
      rw [← hpath, ← hrecursive, ← hignore] at hopen
      exact hopen
    · rcases (mem_returned number call.id managed handle id).mp hid with hold | heq
      · obtain ⟨object, hget, hsettled⟩ := h.listed id hold
        refine ⟨object, (hobjects id hne).trans hget, fun hfree => ?_⟩
        have hkept := hsettled fun hnow => hfree (hbusy id hne hnow)
        exact ⟨hkept.watcher, hkept.last⟩
      · exact absurd heq hne
  case owned =>
    intro index watcher hwatcher hisOpen
    rcases h.owned index watcher hwatcher hisOpen with ⟨other, hother, hid, hgot⟩ |
      ⟨hlisted, hfree, object, hget, hhandle⟩
    · by_cases hsame : other.id = call.id
      · -- the call that made the watcher is the one that returns
        obtain rfl := h.eq_of_id hmem hother hsame
        rw [← hid]
        refine .inr ⟨(mem_returned number _ managed handle _).mpr (.inr rfl),
          fun hnow => (hfewer _ hnow).2 rfl, _, hself, ?_⟩
        exact some.inj (houtcome.symm.trans hgot)
      · exact .inl ⟨other, (h.mem_eraseIdx_iff hcall other).mpr ⟨hother, hsame⟩, hid, hgot⟩
    · have hne : watcher.subscriptionId ≠ call.id := fun heq => hfree ⟨call, hmem, heq.symm⟩
      exact .inr ⟨(mem_returned number _ managed handle _).mpr (.inl hlisted),
        fun hnow => hfree (hfewer _ hnow).1, object, (hobjects _ hne).trans hget, hhandle⟩
  case gone =>
    intro id hid
    obtain ⟨hlisted, hfree, hissued⟩ := h.gone id hid
    refine ⟨fun hnow => ?_, fun hnow => hfree (hfewer id hnow).1, hissued⟩
    rcases (mem_returned number call.id managed handle id).mp hnow with hold | heq
    · exact hlisted hold
    · exact hfree ⟨call, hmem, heq.symm⟩
  case published => exact h.published

theorem Inv.finishes (h : manager.Inv) (number : ℕ) : (manager.finishes number).Inv := by
  unfold WatcherManager.finishes
  split
  · exact h
  · next call hcall =>
    split
    · next handle managed houtcome hobject => exact h.returned hcall houtcome hobject
    · exact h

end Calls

theorem Inv.occurs (h : manager.Inv) (number : ℕ) (event : WatchEvent) :
    (manager.occurs number event).Inv := by
  unfold WatcherManager.occurs
  split
  · exact h
  · next watcher hwatcher =>
    split
    · next hisOpen =>
      split
      · exact h
      · split
        · exact h
        · have hlate : manager.unsubscribed.contains watcher.subscriptionId = false := by
            rw [contains_eq_mem, decide_eq_false_iff_not]
            intro hgone
            obtain ⟨hlisted, hfree, -⟩ := h.gone _ hgone
            rcases h.owned number watcher hwatcher hisOpen with ⟨call, hcall, hid, -⟩ | ⟨hnow, -⟩
            · exact hfree ⟨call, hcall, hid⟩
            · exact hlisted hnow
          have hcalls : ∀ fileEvents, ∀ call ∈ manager.calls,
              CallKept call { manager with fileEvents := fileEvents } := by
            intro fileEvents call hcall
            have hkept := h.calls call hcall
            exact ⟨hkept.object, hkept.watcher, hkept.last⟩
          refine ⟨h.issued, hcalls _, h.oneCall, fun id hid => ?_, h.owned, h.gone, ?_⟩
          · obtain ⟨managed, hmanaged, hsettled⟩ := h.listed id hid
            exact ⟨managed, hmanaged, fun hfree =>
              ⟨(hsettled hfree).watcher, (hsettled hfree).last⟩⟩
          · intro entry hentry
            rcases mem_append.mp hentry with hold | hnew
            · exact h.published entry hold
            · rw [mem_singleton.mp hnew]
              exact hlate
    · exact h

/-! ## Runs -/

theorem Inv.step (h : manager.Inv) (preferredBackend : FileWatcherBackendName)
    {event : WatcherEvent} (hcalm : Calm event manager) :
    (watcherStep preferredBackend event manager).Inv := by
  cases event with
  | subscribe path recursive ignoreGlobs => exact h.subscribe path recursive ignoreGlobs
  | unsubscribe id => exact h.unsubscribe hcalm.1 hcalm.2
  | updateIgnore id ignoreGlobs => exact h.updateIgnore ignoreGlobs hcalm
  | settles call native fs => exact h.settles preferredBackend call native fs
  | finishes call => exact h.finishes call
  | occurs watcher event => exact h.occurs watcher event

def OpenFor (id number : ℕ) (manager : WatcherManager) : Prop :=
  ∃ watcher, manager.watchers[number]? = some watcher ∧ watcher.isOpen = true ∧
    watcher.subscriptionId = id

/-- The open watchers are one for each listed subscription whose last creation succeeded, made
with what the subscription keeps now. -/
structure Exact (manager : WatcherManager) : Prop where
  one : ∀ id ∈ manager.subscriptions, manager.lastCreations.get? id = some true →
    ∃! number, manager.OpenFor id number
  only : ∀ id number, manager.OpenFor id number →
    id ∈ manager.subscriptions ∧ manager.lastCreations.get? id = some true ∧
      ∃ managed, manager.objects.get? id = some managed ∧
        OpenWatcher number id managed.path managed.recursive managed.ignoreEntries manager.watchers

structure Sound (manager : WatcherManager) : Prop where
  exact : manager.calls = [] → manager.Exact
  gone : ∀ id ∈ manager.unsubscribed, id ∉ manager.subscriptions
  silent : ∀ entry ∈ manager.fileEvents, entry.2 = false

theorem Inv.sound (h : manager.Inv) : manager.Sound := by
  refine ⟨fun hquiet => ?_, fun id hid => (h.gone id hid).1, h.published⟩
  have hfree : ∀ id, ¬manager.Busy id := by
    rintro id ⟨call, hcall, -⟩
    rw [hquiet] at hcall
    exact absurd hcall not_mem_nil
  -- whoever has an open watcher is a listed subscription
  have howned : ∀ id number, manager.OpenFor id number → id ∈ manager.subscriptions ∧
      ∃ managed, manager.objects.get? id = some managed ∧
        managed.watchSubscription = some number ∧ Settled id managed manager := by
    rintro id number ⟨watcher, hwatcher, hisOpen, rfl⟩
    rcases h.owned number watcher hwatcher hisOpen with ⟨call, hcall, hid, -⟩ |
      ⟨hlisted, -, object, hobject, hhandle⟩
    · exact absurd ⟨call, hcall, hid⟩ (hfree _)
    · obtain ⟨managed, hmanaged, hsettled⟩ := h.listed _ hlisted
      obtain rfl : object = managed := some.inj (hobject.symm.trans hmanaged)
      exact ⟨hlisted, object, hobject, hhandle, hsettled (hfree _)⟩
  constructor
  · intro id hid hsucceeded
    obtain ⟨managed, hmanaged, hsettled⟩ := h.listed id hid
    have hlast := (hsettled (hfree id)).last
    rw [hsucceeded] at hlast
    obtain ⟨number, hnumber⟩ := isSome_iff_exists.mp (some.inj hlast).symm
    have hopen := (hsettled (hfree id)).watcher number hnumber
    refine ⟨number, ⟨_, hopen.made, rfl, rfl⟩, fun other hother => ?_⟩
    obtain ⟨-, object, hobject, hhandle, -⟩ := howned id other hother
    obtain rfl : managed = object := some.inj (hmanaged.symm.trans hobject)
    exact some.inj (hhandle.symm.trans hnumber)
  · intro id number hopen
    obtain ⟨hlisted, managed, hmanaged, hhandle, hsettled⟩ := howned id number hopen
    refine ⟨hlisted, ?_, managed, hmanaged, hsettled.watcher number hhandle⟩
    rw [hsettled.last, hhandle]
    rfl

end WatcherManager

open WatcherManager in
/-- **Where no call comes for a subscription whose update still waits**, and an unsubscribe is
for an id that was handed out, every state is sound: with no call waiting the open watchers
are those of the listed subscriptions, and what was given up stays so. -/
theorem watchers_sound_of_calm (preferredBackend : FileWatcherBackendName)
    {events : List WatcherEvent}
    (hcalm : RunMeets (watcherStep preferredBackend) Calm .initial events) :
    ∀ manager ∈ visited (watcherStep preferredBackend) .initial events, manager.Sound := by
  have hstep : ∀ event manager, WatcherManager.Inv manager → Calm event manager →
      WatcherManager.Inv (watcherStep preferredBackend event manager) :=
    fun event manager hinv hcalm => hinv.step preferredBackend hcalm
  intro manager hmanager
  exact (invariant_visited hstep inv_initial hcalm manager hmanager).sound

/-- Two subscriptions are made at once; the second one is updated while the first one is
given up, and both watchers have something to deliver then. -/
def overlappingCalls : List WatcherEvent :=
  let edit : WatchEvent :=
    { kind := .change, nativeKind := none, fileName := some "a", relPath := "a",
      pathExists := true }
  [.subscribe "/repo" none none, .subscribe "/docs" none none, .settles 1 .opened .opened,
    .settles 0 .opened .opened, .finishes 1, .updateIgnore 2 ["dist/**"], .finishes 0,
    .unsubscribe 1, .settles 0 .opened .opened, .finishes 0, .occurs 1 edit, .occurs 2 edit]

theorem watchers_sound_overlappingCalls :
    (finalState (watcherStep .native) .initial overlappingCalls).subscriptions = [2] ∧
      (finalState (watcherStep .native) .initial overlappingCalls).fileEvents.map
        (·.1.absolutePath) = ["/docs/a"] ∧
      (finalState (watcherStep .native) .initial overlappingCalls).Sound :=
  ⟨by decide, by decide,
    watchers_sound_of_calm .native (by decide) _ (finalState_mem_visited _ _)⟩

/-- A subscription is given up while its update waits. -/
def lateUpdate : List WatcherEvent :=
  [.subscribe "/repo" none none, .settles 0 .opened .opened, .finishes 0,
    .updateIgnore 1 ["dist/**"], .unsubscribe 1, .settles 0 .opened .opened, .finishes 0]

/-- The update puts the subscription back into the list. -/
theorem lateUpdate_not_sound :
    ¬∀ manager ∈ visited (watcherStep .native) .initial lateUpdate, manager.Sound := by
  intro h
  have hlast := h _ (finalState_mem_visited _ lateUpdate)
  exact hlast.gone 1 (by decide) (by decide)

end Laborer.FileWatcher
