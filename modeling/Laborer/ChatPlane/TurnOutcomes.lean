import Laborer.ChatPlane.ConversationHandler

/-!
# How a turn is shown

The hook, the tap, the two handlers and the finalizer around a turn, and what is left of the
turn in the thread: its reply, a reaction or a notice, and the subscription.
-/

namespace Laborer.ChatPlane

open Library List Bool

namespace ConversationTurn

variable {Image : Type} {turn : ConversationTurn Image} {state after : TurnState}

/-! ## The end of a turn -/

def rolledBack (turn : ConversationTurn Image) (exit : Exit TurnFailure Unit) (state : TurnState) :
    TurnState :=
  if state.subscribedByActivation && !exit.isSuccess then
    { state.attempted .unsubscribe with
      subscribed := state.subscribed && turn.chatPlane.fails .unsubscribe }
  else state

def shown (turn : ConversationTurn Image) : Exit TurnFailure Unit → List ChatAttempt
  | .success _ => [.addReaction turn.thread.rootMessageId completedReaction]
  | .failure (.fail failure) => [.postNotice (noticeFor failure)]
  | .failure .die => [.postNotice (operationalNotice "internal")]
  | .failure .interrupted => [.postNotice (operationalNotice "internal")]
  | .stopped => []

def cleared (turn : ConversationTurn Image) : List ChatAttempt :=
  if turn.isActivation then [.removeReaction turn.message.id workingReaction] else []

theorem rollBack_apply (exit : Exit TurnFailure Unit) (state : TurnState) :
    turn.rollBack exit state = (.success (), turn.rolledBack exit state) := by
  unfold rollBack rolledBack
  split
  · unfold Effect.ignore
    cases hfails : turn.chatPlane.fails .unsubscribe with
    | true =>
      rw [operation_fails hfails]
      simp [TurnState.attempted]
    | false =>
      rw [operation_succeeds hfails]
      simp [TurnState.attempted]
  · rfl

theorem removeWorking_apply (state : TurnState) :
    turn.removeWorking state =
      (.success (), { state with attempts := state.attempts ++ turn.cleared }) := by
  unfold removeWorking cleared
  split
  · exact ignored_operation _ _ _
  · simp

theorem notify_apply (notice : String) (state : TurnState) :
    turn.notify notice state = (.success (), state.attempted (.postNotice notice)) :=
  ignored_operation _ _ _

/-- The hook, the tap and the two handlers: one of them shows how the turn ended. -/
theorem shown_apply {exit : Exit TurnFailure Unit} (h : turn.runTurn state = (exit, after)) :
    ∃ ended : Exit Empty Unit,
      ((((turn.runTurn.onExit turn.rollBack).tap fun _ => turn.complete).catchError fun failure =>
        turn.notify (noticeFor failure)).catchCause fun (_ : Cause Empty) =>
          turn.notify (operationalNotice "internal")) state =
        (ended, { turn.rolledBack exit after with
          attempts := (turn.rolledBack exit after).attempts ++ turn.shown exit }) := by
  have hhook : turn.runTurn.onExit turn.rollBack state = (exit, turn.rolledBack exit after) :=
    Effect.onExit_success h (rollBack_apply exit after)
  cases exit with
  | success value =>
    have htap : ((turn.runTurn.onExit turn.rollBack).tap fun _ => turn.complete) state =
        (.success value, (turn.rolledBack (.success value) after).attempted
          (.addReaction turn.thread.rootMessageId completedReaction)) :=
      Effect.tap_success hhook (ignored_operation _ _ _)
    exact ⟨_, Effect.catchCause_success (Effect.catchError_success htap)⟩
  | stopped =>
    refine ⟨.stopped, ?_⟩
    rw [Effect.catchCause_stopped (Effect.catchError_stopped (Effect.tap_stopped hhook)), shown,
      append_nil]
  | failure cause =>
    have htap : ((turn.runTurn.onExit turn.rollBack).tap fun _ => turn.complete) state =
        (.failure cause, turn.rolledBack (.failure cause) after) := Effect.tap_failure hhook
    cases cause with
    | fail failure =>
      -- the notice is posted by the first handler, and the second has nothing to catch
      refine ⟨.success (), Effect.catchCause_success ?_⟩
      rw [Effect.catchError_fail htap, notify_apply]
      rfl
    | die =>
      refine ⟨.success (), ?_⟩
      rw [Effect.catchCause_failure (Effect.catchError_die htap), notify_apply]
      rfl
    | interrupted =>
      refine ⟨.success (), ?_⟩
      rw [Effect.catchCause_failure (Effect.catchError_interrupted htap), notify_apply]
      rfl

/-- **The layers around a turn.** -/
theorem conversationHandler_apply {exit : Exit TurnFailure Unit}
    (h : turn.runTurn state = (exit, after)) :
    (turn.conversationHandler state).2 =
      { turn.rolledBack exit after with
        attempts := (turn.rolledBack exit after).attempts ++ turn.shown exit ++ turn.cleared } := by
  obtain ⟨ended, hended⟩ := shown_apply h
  rw [conversationHandler, Effect.ensuring_success hended (removeWorking_apply _)]

/-! ## What a turn leaves -/

/-- How the turn ended, before that was shown. -/
def exit (turn : ConversationTurn Image) (subscribed : Bool) : Exit TurnFailure Unit :=
  (turn.runTurn (startState subscribed)).1

def outcome (turn : ConversationTurn Image) (subscribed : Bool) : TurnState :=
  (turn.conversationHandler (startState subscribed)).2

def handed (attempts : List ChatAttempt) : List ReplyStream :=
  attempts.filterMap fun attempt =>
    match attempt with
    | .streamReply reply => some reply
    | _ => none

/-- The completed reaction, or a failure notice. -/
def showsEnd (turn : ConversationTurn Image) : ChatAttempt → Bool
  | .addReaction messageTs emoji =>
    messageTs == turn.thread.rootMessageId && emoji == completedReaction
  | .postNotice _ => true
  | _ => false

def replyTexts (turn : ConversationTurn Image) : List (List Char × StreamEnding) :=
  match turn.publicReply with
  | none => []
  | some reply => if reply.text = [] then [] else [(reply.text, reply.ending)]

/-- What is expected of a turn: its reply is handed over once, whole and in order up to the end
of its stream, or not at all where it has no text; one thing shows how it ended; the working
reaction goes away; and only an activation that succeeded subscribes the thread. -/
structure Expected (turn : ConversationTurn Image) (subscribed : Bool) : Prop where
  reply : (handed (turn.outcome subscribed).attempts).map
    (fun reply => (reply.text, reply.ending)) =
    turn.replyTexts
  shown : (turn.outcome subscribed).attempts.countP turn.showsEnd = 1
  cleared : .addReaction turn.message.id workingReaction ∈ (turn.outcome subscribed).attempts →
    (turn.outcome subscribed).attempts.getLast? =
      some (.removeReaction turn.message.id workingReaction)
  subscription : (turn.outcome subscribed).subscribed =
    (subscribed || (turn.isActivation && (turn.exit subscribed).isSuccess))

/-- What a turn does: nothing shows that it was interrupted itself, and an activation that
failed leaves the thread subscribed where it could not be unsubscribed. -/
structure Settled (turn : ConversationTurn Image) (subscribed : Bool) : Prop where
  reply : (handed (turn.outcome subscribed).attempts).map
    (fun reply => (reply.text, reply.ending)) =
    turn.replyTexts
  shown : (turn.outcome subscribed).attempts.countP turn.showsEnd =
    if turn.exit subscribed = .stopped then 0 else 1
  cleared : .addReaction turn.message.id workingReaction ∈ (turn.outcome subscribed).attempts →
    (turn.outcome subscribed).attempts.getLast? =
      some (.removeReaction turn.message.id workingReaction)
  unchanged : turn.isActivation = false ∨ turn.chatPlane.fails .subscribe = true →
    (turn.outcome subscribed).subscribed = subscribed
  activated : turn.isActivation = true → (turn.exit subscribed).isSuccess = true →
    (turn.outcome subscribed).subscribed = true
  rolledBack : subscribed = false → turn.isActivation = true →
    turn.chatPlane.fails .subscribe = false → (turn.exit subscribed).isSuccess = false →
      (turn.outcome subscribed).subscribed = turn.chatPlane.fails .unsubscribe

/-! ## The operations of a turn -/

def givenUp (turn : ConversationTurn Image) (exit : Exit TurnFailure Unit) : Bool :=
  turn.subscribes && !exit.isSuccess

theorem runTurn_exit (turn : ConversationTurn Image) (subscribed : Bool) :
    turn.runTurn (startState subscribed) = (turn.exit subscribed, turn.turnedState subscribed) := by
  obtain ⟨exit, hexit, -⟩ := runTurn_apply turn subscribed
  rw [ConversationTurn.exit, hexit]

theorem reachesWork_of_success {subscribed : Bool}
    (h : (turn.exit subscribed).isSuccess = true) : turn.reachesWork = true := by
  obtain ⟨exit, hexit, hreaches⟩ := runTurn_apply turn subscribed
  rw [ConversationTurn.exit, hexit] at h
  exact hreaches h

theorem outcome_attempts (turn : ConversationTurn Image) (subscribed : Bool) :
    (turn.outcome subscribed).attempts =
      turn.opening ++ (streamsOf turn.publicReply).map .streamReply ++
        (if turn.givenUp (turn.exit subscribed) then [.unsubscribe] else []) ++
          turn.shown (turn.exit subscribed) ++ turn.cleared := by
  rw [outcome, conversationHandler_apply (runTurn_exit turn subscribed)]
  unfold rolledBack givenUp turnedState
  dsimp only
  split
  · rfl
  · rw [append_nil]

theorem outcome_subscribed (turn : ConversationTurn Image) (subscribed : Bool) :
    (turn.outcome subscribed).subscribed =
      if turn.givenUp (turn.exit subscribed) then turn.chatPlane.fails .unsubscribe
      else subscribed || turn.subscribes := by
  rw [outcome, conversationHandler_apply (runTurn_exit turn subscribed)]
  unfold rolledBack givenUp turnedState
  dsimp only
  split
  · next hgiven =>
    rw [and_eq_true] at hgiven
    rw [hgiven.1, Bool.or_true, Bool.true_and]
  · rfl

theorem handed_append (attempts more : List ChatAttempt) :
    handed (attempts ++ more) = handed attempts ++ handed more :=
  filterMap_append

theorem handed_streams (replies : List ReplyStream) :
    handed (replies.map .streamReply) = replies := by
  rw [handed, filterMap_map]
  exact filterMap_some

theorem handed_opening (turn : ConversationTurn Image) : handed turn.opening = [] := by
  unfold opening
  split
  · split <;> rfl
  · rfl

theorem handed_shown (turn : ConversationTurn Image) (exit : Exit TurnFailure Unit) :
    handed (turn.shown exit) = [] := by
  unfold shown
  split <;> rfl

theorem handed_outcome (turn : ConversationTurn Image) (subscribed : Bool) :
    handed (turn.outcome subscribed).attempts = streamsOf turn.publicReply := by
  have hgiven :
      handed (if turn.givenUp (turn.exit subscribed) then [.unsubscribe] else []) = [] := by
    split <;> rfl
  have hcleared : handed turn.cleared = [] := by
    unfold cleared
    split <;> rfl
  rw [outcome_attempts, handed_append, handed_append, handed_append, handed_append, handed_opening,
    handed_streams, hgiven, handed_shown, hcleared]
  simp

theorem flatMap_dropWhile_isEmpty (chunks : List String) :
    (chunks.dropWhile String.isEmpty).flatMap String.toList = chunks.flatMap String.toList := by
  induction chunks with
  | nil => rfl
  | cons chunk chunks ih =>
    rw [dropWhile_cons]
    split
    · next hempty =>
      rw [ih, flatMap_cons, String.isEmpty_iff.mp hempty]
      rfl
    · rfl

theorem map_streamsOf (turn : ConversationTurn Image) :
    (streamsOf turn.publicReply).map (fun reply => (reply.text, reply.ending)) =
      turn.replyTexts := by
  unfold replyTexts streamsOf
  cases turn.publicReply with
  | none => rfl
  | some reply =>
    have htext := flatMap_dropWhile_isEmpty reply.chunks
    dsimp only
    cases hchunks : reply.chunks.dropWhile String.isEmpty with
    | nil =>
      rw [hchunks] at htext
      have hnothing : reply.text = [] := htext.symm
      rw [if_pos hnothing]
      rfl
    | cons head rest =>
      rw [hchunks] at htext
      have hhead : head.isEmpty = false := by
        have hfirst := head?_dropWhile_not String.isEmpty reply.chunks
        rw [hchunks] at hfirst
        simpa using hfirst
      have hsome : reply.text ≠ [] := by
        intro hnothing
        rw [ReplyStream.text, ← htext, flatMap_cons, append_eq_nil_iff] at hnothing
        have hempty : head.isEmpty = true := by
          rw [String.isEmpty_iff]
          exact String.toList_eq_nil_iff.mp hnothing.1
        rw [hhead] at hempty
        cases hempty
      rw [if_neg hsome]
      show [((head :: rest).flatMap String.toList, reply.ending)] = _
      rw [htext]
      rfl

theorem countP_opening (turn : ConversationTurn Image) : turn.opening.countP turn.showsEnd = 0 := by
  have hne : workingReaction ≠ completedReaction := by decide
  unfold opening
  split
  · split
    · rfl
    · simp [showsEnd, hne]
  · rfl

theorem countP_shown (turn : ConversationTurn Image) (exit : Exit TurnFailure Unit) :
    (turn.shown exit).countP turn.showsEnd = if exit = .stopped then 0 else 1 := by
  cases exit with
  | success value => simp [shown, showsEnd]
  | stopped => rfl
  | failure cause => cases cause <;> simp [shown, showsEnd]

theorem countP_outcome (turn : ConversationTurn Image) (subscribed : Bool) :
    (turn.outcome subscribed).attempts.countP turn.showsEnd =
      if turn.exit subscribed = .stopped then 0 else 1 := by
  have hstreams : ((streamsOf turn.publicReply).map ChatAttempt.streamReply).countP
      turn.showsEnd = 0 := by
    rw [countP_eq_zero]
    intro attempt hattempt
    obtain ⟨reply, -, rfl⟩ := mem_map.mp hattempt
    simp [showsEnd]
  have hgiven : (if turn.givenUp (turn.exit subscribed) then [ChatAttempt.unsubscribe]
      else []).countP turn.showsEnd = 0 := by
    split <;> rfl
  have hcleared : turn.cleared.countP turn.showsEnd = 0 := by
    unfold cleared
    split <;> rfl
  rw [outcome_attempts, countP_append, countP_append, countP_append,
    countP_append, countP_opening, hstreams, hgiven, countP_shown, hcleared]
  simp

theorem working_not_mem_shown (turn : ConversationTurn Image) (exit : Exit TurnFailure Unit) :
    .addReaction turn.message.id workingReaction ∉ turn.shown exit := by
  have hne : workingReaction ≠ completedReaction := by decide
  unfold shown
  split <;> simp [hne]

theorem isActivation_of_working {subscribed : Bool}
    (h : .addReaction turn.message.id workingReaction ∈ (turn.outcome subscribed).attempts) :
    turn.isActivation = true := by
  by_contra hactivation
  rw [not_eq_true] at hactivation
  rw [outcome_attempts, opening, givenUp, subscribes, cleared, hactivation] at h
  simp [working_not_mem_shown] at h

theorem cleared_outcome {subscribed : Bool}
    (h : .addReaction turn.message.id workingReaction ∈ (turn.outcome subscribed).attempts) :
    (turn.outcome subscribed).attempts.getLast? =
      some (.removeReaction turn.message.id workingReaction) := by
  rw [outcome_attempts, cleared, if_pos (isActivation_of_working h)]
  exact getLast?_concat

/-- **Every turn.** -/
theorem turn_settled (turn : ConversationTurn Image) (subscribed : Bool) :
    turn.Settled subscribed where
  reply := by rw [handed_outcome, map_streamsOf]
  shown := countP_outcome turn subscribed
  cleared := cleared_outcome
  unchanged := by
    intro h
    have hsubscribes : turn.subscribes = false := by
      rcases h with hactivation | hfails
      · rw [subscribes, hactivation, Bool.false_and]
      · rw [subscribes, hfails, Bool.not_true, Bool.and_false]
    rw [outcome_subscribed, givenUp, hsubscribes, Bool.or_false]
    rfl
  activated := by
    intro hactivation hsuccess
    have hreaches := reachesWork_of_success hsuccess
    rw [reachesWork, hactivation, Bool.not_true, Bool.false_or, Bool.and_eq_true] at hreaches
    have hsubscribes : turn.subscribes = true := by
      rw [subscribes, hactivation, hreaches.1]
      rfl
    rw [outcome_subscribed, givenUp, hsuccess, hsubscribes, Bool.or_true]
    rfl
  rolledBack := by
    rintro rfl hactivation hfails hfailed
    have hsubscribes : turn.subscribes = true := by
      rw [subscribes, hactivation, hfails]
      rfl
    rw [outcome_subscribed, givenUp, hsubscribes, hfailed]
    rfl

/-! ## Where more is expected -/

def plainTurn (fails : ChatAttempt → Bool) (work : Exit WorkError (Option ReplyStream))
    (isActivation : Bool) : ConversationTurn Unit where
  chatPlane := { fails := fails, history := [] }
  workHandler := fun _ => some work
  thread :=
    { channelId := "C1", id := "slack:C1:49.000", rootMessageId := "49.000", workspaceId := "T1" }
  message :=
    { author := { isBot := some false, isMe := false, isSystem := false, userId := "U1" }
      edited := false
      id := "50.000"
      images := none
      text := "@laborer work" }
  skipped := []
  isActivation := isActivation

/-- An activation fails and the thread cannot be unsubscribed; a turn is interrupted itself. -/
theorem plainTurn_not_expected :
    ¬(plainTurn (· == .unsubscribe) (.failure .die) true).Expected false ∧
      ¬(plainTurn (fun _ => false) .stopped false).Expected false := by
  constructor
  · intro h
    exact absurd h.subscription (by decide)
  · intro h
    exact absurd h.shown (by decide)

end ConversationTurn

end Laborer.ChatPlane
