import Laborer.Library.Decoder

/-!
# Schemas of the durable runtime

What the runtime takes from its clients and reads back from its database: application
events, the outputs of a conversation, Execution events and the receipts of controls.
-/

namespace Laborer.DurableRuntime

open Library

/-! ## Strings -/

/-- `/\S/`. -/
def isNonBlank (s : String) : Bool :=
  !s.toList.all isJsWhitespace

def boundedNonBlankString (maximumLength : ℕ) (s : String) : Bool :=
  isNonBlank s && jsLength s ≤ maximumLength

def runtimeConversationId : String → Bool := boundedNonBlankString 512

def runtimeInvocationId : String → Bool := boundedNonBlankString 512

def runtimeRootIdentity : String → Bool := boundedNonBlankString 4096

def runtimeExecutionId : String → Bool := boundedNonBlankString 160

def runtimeEventId : String → Bool := boundedNonBlankString 256

def runtimeProgressId : String → Bool := boundedNonBlankString 256

def runtimeControlId : String → Bool := boundedNonBlankString 256

def runtimeWorkspaceId : String → Bool := boundedNonBlankString 256

def followUpContent : String → Bool := boundedNonBlankString (16 * 1024)

def actionName : String → Bool := boundedNonBlankString 96

def actionRevision : String → Bool := boundedNonBlankString 128

def isHex (c : Char) : Bool :=
  c.isDigit || ('a' ≤ c && c ≤ 'f')

/-- `/^[a-f0-9]{64}$/`. -/
def isContentDigest (s : String) : Bool :=
  s.toList.length = 64 && s.toList.all isHex

/-- `/^inbound-images\/[a-f0-9]{64}\.(?:gif|jpg|png|webp)$/`. -/
def isContentPath (s : String) : Bool :=
  let folder := "inbound-images/".toList
  let rest := s.toList.drop folder.length
  s.toList.take folder.length = folder && (rest.take 64).length = 64 && (rest.take 64).all isHex &&
    [".gif", ".jpg", ".png", ".webp"].any fun extension => rest.drop 64 = extension.toList

/-- `/^[\w-]{43}$/u`. -/
def isSha256Base64url (s : String) : Bool :=
  s.toList.length = 43 && s.toList.all fun c => c.isAlphanum || c = '-' || c = '_'

/-! ## Events of a conversation -/

section Schemas

open Decoder

def required (name : String) (decode : Decoder) : Field where
  name := name
  presence := .required
  decode := decode

def anyString : Decoder := string fun _ => true

def nonBlankString : Decoder := string isNonBlank

def tag (name : String) : Field := required "_tag" (literals [name])

def normalizedImageInput : Decoder := struct
  [required "byteLength" (int fun n => 0 < n),
    required "contentDigest" (string isContentDigest),
    required "contentPath" (string isContentPath),
    required "id" nonBlankString,
    required "mimeType" (literals ["image/gif", "image/jpeg", "image/png", "image/webp"]),
    required "slackFileId" nonBlankString]

def unavailableNormalizedImageInput : Decoder := struct
  [required "failureReason" nonBlankString,
    required "id" nonBlankString,
    required "slackFileId" nonBlankString]

def normalizedImage : Decoder := orElse normalizedImageInput unavailableNormalizedImageInput

def normalizedMessage : Decoder := struct
  [required "authorKind" (literals ["human", "externalBot", "laborer"]),
    required "authorSlackId" anyString,
    required "classification" (literals ["context", "input"]),
    required "id" anyString,
    required "isActivation" boolean,
    { name := "images", presence := .byDefault (.arr []), decode := array normalizedImage },
    required "slackTs" anyString,
    required "text" anyString]

def participantInputEvent : Decoder := struct
  [tag "ParticipantInput",
    required "attemptNumber" number,
    required "channelId" anyString,
    required "context" (array normalizedMessage),
    required "conversationId" anyString,
    required "initializationStatus" (literals ["not_applicable", "pending", "completed"]),
    required "messages" (array normalizedMessage),
    required "rootTs" anyString,
    required "source" (literals ["slack"]),
    required "turnId" anyString,
    required "workingDirectory" (nullOr anyString)]

def externalInputEvent : Decoder := struct
  [tag "ExternalInput",
    required "conversationId" anyString,
    required "eventId" nonBlankString,
    required "payload" unknown,
    required "source" nonBlankString]

def applicationEvent : Decoder := orElse participantInputEvent externalInputEvent

/-! ## Outputs of a conversation -/

def applicationPublicReply : Decoder := struct
  [tag "PublicReply",
    required "replyId" nonBlankString,
    required "text" nonBlankString]

def applicationConversationMessageChunk : Decoder := struct
  [tag "ConversationMessageChunk",
    required "messageId" nonBlankString,
    { name := "sequence", presence := .optional, decode := number },
    required "text" anyString]

def conversationOutput : Decoder :=
  orElse applicationConversationMessageChunk applicationPublicReply

/-! ## Executions -/

def executionEventSchema : Decoder := struct
  [required "conversationId" (string runtimeConversationId),
    required "eventId" (string runtimeEventId),
    required "executionId" (string runtimeExecutionId),
    required "kind" (literals ["progress", "completed", "failed", "cancelled"]),
    required "payload" unknown,
    required "sequence" (int fun n => 0 < n),
    required "workspaceId" (string runtimeWorkspaceId)]

def executionControlSnapshotSchema : Decoder := struct
  [required "actionName" (string actionName),
    required "actionRevision" (string actionRevision),
    required "canCancel" boolean,
    required "canFollowUp" boolean,
    required "conversationId" (string runtimeConversationId),
    required "executionId" (string runtimeExecutionId),
    required "status" (literals ["queued", "running", "cancelling", "completed", "failed",
      "cancelled", "needs-attention"]),
    required "workspaceId" (string runtimeWorkspaceId)]

def executionControlReceiptSchema : Decoder := struct
  [required "controlId" (string runtimeControlId),
    required "deduplicated" boolean,
    required "execution" executionControlSnapshotSchema]

end Schemas

/-! ## Reading the properties of a value -/

/-- `value[name]`. -/
def member (name : String) : JsValue → Option JsValue
  | .obj entries => entries.lookup name
  | _ => none

/-- `value[name]` where it is a string. -/
def stringMember (name : String) (value : JsValue) : String :=
  match member name value with
  | some (.str s) => s
  | _ => ""

def applicationEventId (event : JsValue) : String :=
  if stringMember "_tag" event = "ParticipantInput" then stringMember "turnId" event
  else stringMember "eventId" event

end Laborer.DurableRuntime
