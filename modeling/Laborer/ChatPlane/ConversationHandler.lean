import Laborer.Library.Effects
import Laborer.Library.Text
import Mathlib.Data.Rat.Floor

/-!
# The conversation handler

One turn in a thread: an activation subscribes the thread and reads what was said before it,
the work handler is given the messages, and its reply is streamed back. How the turn ended is
shown by a reaction or a notice, and an activation that failed gives its subscription up.
-/

namespace Laborer.ChatPlane

open Library List

/-! ## Messages -/

/-- `isBot` is absent where it is `unknown`. -/
structure ChatSdkAuthor where
  isBot : Option Bool
  isMe : Bool
  isSystem : Bool
  userId : String
deriving DecidableEq

structure ChatSdkMessage (Image : Type) where
  author : ChatSdkAuthor
  edited : Bool
  id : String
  images : Option (List Image)
  text : String

structure ChatSdkThread where
  channelId : String
  id : String
  rootMessageId : String
  workspaceId : String

inductive AuthorKind where
  | human
  | externalBot

inductive MessageClassification where
  | context
  | input

structure ChatPlaneNormalizedMessage (Image : Type) where
  authorKind : AuthorKind
  authorSlackId : String
  classification : MessageClassification
  id : String
  images : List Image
  isActivation : Bool
  slackTs : String
  text : String

structure ChatPlaneTurn (Image : Type) where
  channelId : String
  messages : List (ChatPlaneNormalizedMessage Image)
  rootTs : String
  threadId : String
  workspaceId : String

variable {Image : Type}

def normalizeMessage (message : ChatSdkMessage Image) (classification : MessageClassification)
    (isActivation : Bool) : ChatPlaneNormalizedMessage Image where
  authorKind := if message.author.isBot = some true then .externalBot else .human
  authorSlackId := message.author.userId
  classification := classification
  id := message.id
  images := message.images.getD []
  isActivation := isActivation
  slackTs := message.id
  text := message.text

def isEligibleInput (message : ChatSdkMessage Image) : Bool :=
  !message.author.isMe && !message.author.isSystem && !message.edited &&
    !(jsTrim message.text).isEmpty

/-! ## Replies -/

/-- A failure of the work, as far as the chat plane tells failures apart. -/
inductive WorkError where
  | unavailable (retryAfterMillis : ℚ)
  | other
deriving DecidableEq

/-- How a stream of chunks ends: the last case is the interruption of the turn that reads it. -/
inductive StreamEnding where
  | done
  | error (cause : Cause WorkError)
  | stopped
deriving DecidableEq

structure ReplyStream where
  chunks : List String
  ending : StreamEnding
deriving DecidableEq

def ReplyStream.text (reply : ReplyStream) : List Char :=
  reply.chunks.flatMap String.toList

inductive TurnFailure where
  | chatOperation
  | internal
  | workHandler
  | unavailable (retryAfterMillis : ℚ)
deriving DecidableEq

def operationalNotice (category : String) : String :=
  "Laborer turn failed (category: " ++ category ++ "). Mention Laborer again to continue."

def temporarilyUnavailableNotice (retryAfterMillis : ℚ) : String :=
  let minutes := max 1 (retryAfterMillis / 60000).ceil
  "Laborer is temporarily unavailable in this workspace while its agent process recovers. " ++
    "Mention Laborer again in about " ++ toString minutes ++ " minute" ++
      (if minutes = 1 then "" else "s") ++ "."

def noticeFor : TurnFailure → String
  | .chatOperation => operationalNotice "chat-operation"
  | .internal => operationalNotice "internal"
  | .workHandler => operationalNotice "work-handler"
  | .unavailable retryAfterMillis => temporarilyUnavailableNotice retryAfterMillis

def workingReaction : String := "hourglass_flowing_sand"

def completedReaction : String := "white_check_mark"

/-! ## Operations of the chat plane -/

inductive ChatAttempt where
  | subscribe
  | unsubscribe
  | addReaction (messageTs emoji : String)
  | removeReaction (messageTs emoji : String)
  | readActivationHistory
  | streamReply (reply : ReplyStream)
  | postNotice (notice : String)
deriving DecidableEq

/-- Which operations fail, and what is read of the thread. -/
structure ChatPlaneShape (Image : Type) where
  fails : ChatAttempt → Bool
  history : List (ChatSdkMessage Image)

/-- The subscription of the thread, the variable of the turn, and the operations it called. -/
structure TurnState where
  subscribed : Bool
  subscribedByActivation : Bool
  attempts : List ChatAttempt

def TurnState.attempted (attempt : ChatAttempt) (state : TurnState) : TurnState :=
  { state with attempts := state.attempts ++ [attempt] }

/-- An operation, and what it does unless it fails. -/
def ChatPlaneShape.operation (chatPlane : ChatPlaneShape Image) (attempt : ChatAttempt)
    (effect : TurnState → TurnState) : Effect TurnState Unit Unit := fun state =>
  if chatPlane.fails attempt then (.failure (.fail ()), state.attempted attempt)
  else (.success (), effect (state.attempted attempt))

/-- A turn with all that it is given. The work handler may throw before it returns an effect. -/
structure ConversationTurn (Image : Type) where
  chatPlane : ChatPlaneShape Image
  workHandler : ChatPlaneTurn Image → Option (Exit WorkError (Option ReplyStream))
  thread : ChatSdkThread
  message : ChatSdkMessage Image
  skipped : List (ChatSdkMessage Image)
  isActivation : Bool

/-! ## The turn -/

def failTurn {α : Type} (cause : Cause WorkError) : Effect TurnState TurnFailure α :=
  match cause with
  | .fail (.unavailable retryAfterMillis) =>
      .done (.failure (.fail (.unavailable retryAfterMillis)))
  | _ => .done (.failure (.fail .workHandler))

/-- The reply from its first chunk that is not empty, or nothing where it has none. -/
def withFirstChunk (reply : ReplyStream) : Effect TurnState TurnFailure (Option ReplyStream) :=
  match reply.chunks.dropWhile String.isEmpty with
  | head :: rest => .succeed (some { chunks := head :: rest, ending := reply.ending })
  | [] =>
    match reply.ending with
    | .done => .succeed none
    | .error cause => failTurn cause
    | .stopped => .done .stopped

namespace ConversationTurn

variable (turn : ConversationTurn Image)

def activate : Effect TurnState TurnFailure Unit :=
  if turn.isActivation then
    ((turn.chatPlane.operation .subscribe fun state => { state with subscribed := true }).mapError
      fun _ => .chatOperation).andThen fun _ =>
        (Effect.modify fun state => { state with subscribedByActivation := true }).andThen fun _ =>
          (turn.chatPlane.operation (.addReaction turn.message.id workingReaction) id).ignore
  else .succeed ()

def activationHistory : Effect TurnState TurnFailure (List (ChatSdkMessage Image)) :=
  if turn.isActivation then
    ((turn.chatPlane.operation .readActivationHistory id).mapError
      fun _ => .chatOperation).andThen fun _ => .succeed turn.chatPlane.history
  else .succeed []

def chatPlaneTurn (history : List (ChatSdkMessage Image)) : ChatPlaneTurn Image where
  channelId := turn.thread.channelId
  messages :=
    history.map (fun historical => normalizeMessage historical .context false) ++
      (turn.skipped.filter isEligibleInput).map
        (fun skipped => normalizeMessage skipped .input false) ++
        [normalizeMessage turn.message .input turn.isActivation]
  rootTs := turn.thread.rootMessageId
  threadId := turn.thread.id
  workspaceId := turn.thread.workspaceId

def work (history : List (ChatSdkMessage Image)) :
    Effect TurnState TurnFailure (Option ReplyStream) :=
  match turn.workHandler (turn.chatPlaneTurn history) with
  | none => .done (.failure .die)
  | some exit => (Effect.done exit).catchCause failTurn

/-- The post of a stream fails where the stream does. -/
def streamReply (reply : ReplyStream) : Effect TurnState TurnFailure Unit :=
  ((turn.chatPlane.operation (.streamReply reply) id).andThen fun _ =>
    match reply.ending with
    | .done => .succeed ()
    | .error _ => .done (.failure (.fail ()))
    | .stopped => .done .stopped).mapError fun _ => .chatOperation

def publish (publicReply : Option ReplyStream) : Effect TurnState TurnFailure Unit :=
  match publicReply with
  | none => .succeed ()
  | some reply =>
    (withFirstChunk reply).andThen fun first =>
      match first with
      | none => .succeed ()
      | some reply => turn.streamReply reply

def runTurn : Effect TurnState TurnFailure Unit :=
  turn.activate.andThen fun _ =>
    turn.activationHistory.andThen fun history =>
      (turn.work history).andThen fun publicReply => turn.publish publicReply

def rollBack (exit : Exit TurnFailure Unit) : Effect TurnState TurnFailure Unit := fun state =>
  if state.subscribedByActivation && !exit.isSuccess then
    (turn.chatPlane.operation .unsubscribe
      fun state => { state with subscribed := false }).ignore state
  else (.success (), state)

def complete : Effect TurnState TurnFailure Unit :=
  (turn.chatPlane.operation (.addReaction turn.thread.rootMessageId completedReaction) id).ignore

def notify (notice : String) : Effect TurnState Empty Unit :=
  (turn.chatPlane.operation (.postNotice notice) id).ignore

def removeWorking : Effect TurnState Empty Unit :=
  if turn.isActivation then
    (turn.chatPlane.operation (.removeReaction turn.message.id workingReaction) id).ignore
  else .succeed ()

/-- `makeConversationHandler` -/
def conversationHandler : Effect TurnState Empty Unit :=
  ((((turn.runTurn.onExit turn.rollBack).tap fun _ => turn.complete).catchError fun failure =>
    turn.notify (noticeFor failure)).catchCause fun (_ : Cause Empty) =>
      turn.notify (operationalNotice "internal")).ensuring turn.removeWorking

end ConversationTurn

/-! ## What the parts of a turn do -/

namespace ConversationTurn

variable {turn : ConversationTurn Image} {state after : TurnState}

theorem ignored_operation {ε : Type} (chatPlane : ChatPlaneShape Image) (attempt : ChatAttempt)
    (state : TurnState) :
    ((chatPlane.operation attempt id).ignore : Effect TurnState ε Unit) state =
      (.success (), state.attempted attempt) := by
  unfold Effect.ignore ChatPlaneShape.operation
  cases chatPlane.fails attempt <;> rfl

theorem operation_fails {chatPlane : ChatPlaneShape Image} {attempt : ChatAttempt}
    {effect : TurnState → TurnState} (h : chatPlane.fails attempt = true) :
    chatPlane.operation attempt effect state = (.failure (.fail ()), state.attempted attempt) :=
  if_pos h

theorem operation_succeeds {chatPlane : ChatPlaneShape Image} {attempt : ChatAttempt}
    {effect : TurnState → TurnState} (h : chatPlane.fails attempt = false) :
    chatPlane.operation attempt effect state = (.success (), effect (state.attempted attempt)) :=
  if_neg (by rw [h]; decide)

def subscribes (turn : ConversationTurn Image) : Bool :=
  turn.isActivation && !turn.chatPlane.fails .subscribe

def reachesWork (turn : ConversationTurn Image) : Bool :=
  !turn.isActivation || (!turn.chatPlane.fails .subscribe &&
    !turn.chatPlane.fails .readActivationHistory)

def historyRead (turn : ConversationTurn Image) : List (ChatSdkMessage Image) :=
  if turn.isActivation then turn.chatPlane.history else []

def opening (turn : ConversationTurn Image) : List ChatAttempt :=
  if turn.isActivation then
    if turn.chatPlane.fails .subscribe then [.subscribe]
    else [.subscribe, .addReaction turn.message.id workingReaction, .readActivationHistory]
  else []

def publicReply (turn : ConversationTurn Image) : Option ReplyStream :=
  if turn.reachesWork then
    match turn.workHandler (turn.chatPlaneTurn turn.historyRead) with
    | some (.success publicReply) => publicReply
    | _ => none
  else none

def streamsOf (publicReply : Option ReplyStream) : List ReplyStream :=
  match publicReply with
  | none => []
  | some reply =>
    match reply.chunks.dropWhile String.isEmpty with
    | [] => []
    | head :: rest => [{ chunks := head :: rest, ending := reply.ending }]

def turnedState (turn : ConversationTurn Image) (subscribed : Bool) : TurnState where
  subscribed := subscribed || turn.subscribes
  subscribedByActivation := turn.subscribes
  attempts := turn.opening ++ (streamsOf turn.publicReply).map .streamReply

theorem failTurn_apply (α : Type) (cause : Cause WorkError) (state : TurnState) :
    ∃ exit : Exit TurnFailure α, failTurn cause state = (exit, state) ∧ exit.isSuccess = false := by
  unfold failTurn
  split <;> exact ⟨_, rfl, rfl⟩

theorem withFirstChunk_nil {reply : ReplyStream}
    (h : reply.chunks.dropWhile String.isEmpty = []) (state : TurnState) :
    ∃ exit, withFirstChunk reply state = (exit, state) ∧
      ∀ first, exit = .success first → first = none := by
  unfold withFirstChunk
  rw [h]
  cases hending : reply.ending with
  | done => exact ⟨.success none, rfl, fun first heq => (Exit.success.inj heq).symm⟩
  | stopped => exact ⟨.stopped, rfl, fun first heq => by cases heq⟩
  | error cause =>
    obtain ⟨exit, hexit, hfailed⟩ := failTurn_apply (Option ReplyStream) cause state
    refine ⟨exit, hexit, fun first heq => ?_⟩
    rw [heq] at hfailed
    cases hfailed

theorem withFirstChunk_cons {reply : ReplyStream} {head : String} {rest : List String}
    (h : reply.chunks.dropWhile String.isEmpty = head :: rest) (state : TurnState) :
    withFirstChunk reply state =
      (.success (some { chunks := head :: rest, ending := reply.ending }), state) := by
  unfold withFirstChunk
  rw [h]
  rfl

theorem streamReply_apply (reply : ReplyStream) (state : TurnState) :
    ∃ exit, turn.streamReply reply state = (exit, state.attempted (.streamReply reply)) := by
  unfold streamReply Effect.mapError
  cases hfails : turn.chatPlane.fails (.streamReply reply) with
  | true =>
    rw [Effect.andThen_failure (operation_fails hfails)]
    exact ⟨_, rfl⟩
  | false =>
    rw [Effect.andThen_success (operation_succeeds hfails)]
    cases reply.ending with
    | done => exact ⟨_, rfl⟩
    | error cause => exact ⟨_, rfl⟩
    | stopped => exact ⟨_, rfl⟩

/-- A reply is handed over from its first text on, and not at all where it has none. -/
theorem publish_apply (publicReply : Option ReplyStream) (state : TurnState) :
    ∃ exit, turn.publish publicReply state =
      (exit, { state with
        attempts := state.attempts ++ (streamsOf publicReply).map .streamReply }) := by
  cases publicReply with
  | none =>
    refine ⟨.success (), ?_⟩
    rw [streamsOf, map_nil, append_nil]
    rfl
  | some reply =>
    unfold publish streamsOf
    dsimp only
    cases hchunks : reply.chunks.dropWhile String.isEmpty with
    | nil =>
      obtain ⟨exit, hexit, hnone⟩ := withFirstChunk_nil hchunks state
      dsimp only
      rw [map_nil, append_nil]
      rcases Effect.andThen_cases hexit with ⟨first, hfirst, hrun⟩ | ⟨failed, -, hrun⟩
      · obtain rfl := hnone first hfirst
        exact ⟨.success (), hrun⟩
      · exact ⟨failed, hrun⟩
    | cons head rest =>
      rw [Effect.andThen_success (withFirstChunk_cons hchunks state)]
      exact streamReply_apply _ state

/-- The work ends with what the work handler gives, or fails. -/
theorem work_apply (history : List (ChatSdkMessage Image)) (state : TurnState) :
    ∃ exit, turn.work history state = (exit, state) ∧ ((∃ reply, exit = .success reply ∧
          turn.workHandler (turn.chatPlaneTurn history) = some (.success reply)) ∨
        (exit.isSuccess = false ∧
          ∀ reply, turn.workHandler (turn.chatPlaneTurn history) ≠ some (.success reply))) := by
  unfold work
  cases hwork : turn.workHandler (turn.chatPlaneTurn history) with
  | none => exact ⟨.failure .die, rfl, .inr ⟨rfl, fun reply => by simp⟩⟩
  | some exit =>
    cases exit with
    | success given => exact ⟨.success given, rfl, .inl ⟨given, rfl, rfl⟩⟩
    | stopped => exact ⟨.stopped, rfl, .inr ⟨rfl, fun reply => by simp⟩⟩
    | failure cause =>
      obtain ⟨exit, hexit, hfailed⟩ := failTurn_apply (Option ReplyStream) cause state
      exact ⟨exit, hexit, .inr ⟨hfailed, fun reply => by simp⟩⟩

theorem publicReply_of_success (hreaches : turn.reachesWork = true) {reply : Option ReplyStream}
    (h : turn.workHandler (turn.chatPlaneTurn turn.historyRead) = some (.success reply)) :
    turn.publicReply = reply := by
  rw [publicReply, if_pos hreaches, h]

theorem publicReply_of_failure
    (h : ∀ reply, turn.workHandler (turn.chatPlaneTurn turn.historyRead) ≠ some (.success reply)) :
    turn.publicReply = none := by
  unfold publicReply
  split
  · split
    · next reply heq => exact absurd heq (h reply)
    · rfl
  · rfl

theorem activate_of_not (h : turn.isActivation = false) (state : TurnState) :
    turn.activate state = (.success (), state) := by
  rw [activate, if_neg (by rw [h]; decide)]
  rfl

theorem activate_refused (h : turn.isActivation = true)
    (hfails : turn.chatPlane.fails .subscribe = true) (state : TurnState) :
    turn.activate state = (.failure (.fail .chatOperation), state.attempted .subscribe) := by
  rw [activate, if_pos h]
  apply Effect.andThen_failure
  rw [Effect.mapError, operation_fails hfails]
  rfl

theorem activate_done (h : turn.isActivation = true)
    (hfails : turn.chatPlane.fails .subscribe = false) (state : TurnState) :
    turn.activate state =
      (.success (),
        { subscribed := true
          subscribedByActivation := true
          attempts := state.attempts ++
            [.subscribe, .addReaction turn.message.id workingReaction] }) := by
  have hsubscribe : ((turn.chatPlane.operation .subscribe
      fun state => { state with subscribed := true }).mapError
        fun _ => TurnFailure.chatOperation) state =
      (.success (), { state.attempted .subscribe with subscribed := true }) := by
    rw [Effect.mapError, operation_succeeds hfails]
    rfl
  rw [activate, if_pos h, Effect.andThen_success hsubscribe,
    Effect.andThen_success (Effect.modify_apply _ _), ignored_operation]
  simp [TurnState.attempted]

theorem activationHistory_of_not (h : turn.isActivation = false) (state : TurnState) :
    turn.activationHistory state = (.success turn.historyRead, state) := by
  rw [activationHistory, historyRead, if_neg (by rw [h]; decide), if_neg (by rw [h]; decide)]
  rfl

theorem activationHistory_refused (h : turn.isActivation = true)
    (hfails : turn.chatPlane.fails .readActivationHistory = true) (state : TurnState) :
    turn.activationHistory state =
      (.failure (.fail .chatOperation), state.attempted .readActivationHistory) := by
  rw [activationHistory, if_pos h]
  apply Effect.andThen_failure
  rw [Effect.mapError, operation_fails hfails]
  rfl

theorem activationHistory_done (h : turn.isActivation = true)
    (hfails : turn.chatPlane.fails .readActivationHistory = false) (state : TurnState) :
    turn.activationHistory state =
      (.success turn.historyRead, state.attempted .readActivationHistory) := by
  have hread : ((turn.chatPlane.operation .readActivationHistory id).mapError
      fun _ => TurnFailure.chatOperation) state =
      (.success (), state.attempted .readActivationHistory) := by
    rw [Effect.mapError, operation_succeeds hfails]
    rfl
  rw [activationHistory, historyRead, if_pos h, if_pos h, Effect.andThen_success hread]
  rfl

theorem work_publish_apply (hreaches : turn.reachesWork = true) (state : TurnState) :
    ∃ exit, ((turn.work turn.historyRead).andThen fun publicReply =>
      turn.publish publicReply) state =
      (exit, { state with
        attempts := state.attempts ++ (streamsOf turn.publicReply).map .streamReply }) := by
  obtain ⟨exit, hexit, ⟨reply, hreply, hgiven⟩ | ⟨hfailed, hgiven⟩⟩ :=
    work_apply turn.historyRead state
  · rw [hreply] at hexit
    rw [Effect.andThen_success hexit, publicReply_of_success hreaches hgiven]
    exact publish_apply reply state
  · rcases Effect.andThen_cases hexit with ⟨given, hsuccess, -⟩ | ⟨failed, -, hrun⟩
    · rw [hsuccess] at hfailed
      cases hfailed
    · refine ⟨failed, ?_⟩
      rw [publicReply_of_failure hgiven, streamsOf, map_nil, append_nil]
      exact hrun

def startState (subscribed : Bool) : TurnState where
  subscribed := subscribed
  subscribedByActivation := false
  attempts := []

/-- **What a turn has done before its end is shown.** -/
theorem runTurn_apply (turn : ConversationTurn Image) (subscribed : Bool) :
    ∃ exit, turn.runTurn (startState subscribed) = (exit, turn.turnedState subscribed) ∧
      (exit.isSuccess = true → turn.reachesWork = true) := by
  have hnothing : turn.reachesWork = false → turn.publicReply = none := by
    intro h
    rw [publicReply, if_neg (by rw [h]; decide)]
  cases hactivation : turn.isActivation with
  | false =>
    have hreaches : turn.reachesWork = true := by rw [reachesWork, hactivation]; rfl
    obtain ⟨exit, hexit⟩ := work_publish_apply hreaches (startState subscribed)
    refine ⟨exit, ?_, fun _ => hreaches⟩
    rw [runTurn, Effect.andThen_success (activate_of_not hactivation _),
      Effect.andThen_success (activationHistory_of_not hactivation _), hexit]
    simp [turnedState, startState, subscribes, opening, hactivation]
  | true =>
    cases hsubscribe : turn.chatPlane.fails .subscribe with
    | true =>
      have hreaches : turn.reachesWork = false := by
        rw [reachesWork, hactivation, hsubscribe]
        rfl
      refine ⟨.failure (.fail .chatOperation), ?_, fun h => by cases h⟩
      rw [runTurn, Effect.andThen_failure (activate_refused hactivation hsubscribe _)]
      simp [turnedState, startState, subscribes, opening, hactivation, hsubscribe,
        hnothing hreaches, streamsOf, TurnState.attempted]
    | false =>
      cases hhistory : turn.chatPlane.fails .readActivationHistory with
      | true =>
        have hreaches : turn.reachesWork = false := by
          rw [reachesWork, hactivation, hsubscribe, hhistory]
          rfl
        refine ⟨.failure (.fail .chatOperation), ?_, fun h => by cases h⟩
        rw [runTurn, Effect.andThen_success (activate_done hactivation hsubscribe _),
          Effect.andThen_failure (activationHistory_refused hactivation hhistory _)]
        simp [turnedState, startState, subscribes, opening, hactivation, hsubscribe,
          hnothing hreaches, streamsOf, TurnState.attempted]
      | false =>
        have hreaches : turn.reachesWork = true := by
          rw [reachesWork, hactivation, hsubscribe, hhistory]
          rfl
        obtain ⟨exit, hexit⟩ := work_publish_apply hreaches
          { subscribed := true
            subscribedByActivation := true
            attempts := turn.opening }
        refine ⟨exit, ?_, fun _ => hreaches⟩
        rw [runTurn, Effect.andThen_success (activate_done hactivation hsubscribe _),
          Effect.andThen_success (activationHistory_done hactivation hhistory _)]
        simpa [turnedState, startState, subscribes, opening, hactivation, hsubscribe,
          TurnState.attempted] using hexit

end ConversationTurn

end Laborer.ChatPlane
