import Mathlib.Data.List.Basic
import Mathlib.Data.Int.Notation

/-! # The Responses stream converter

The chunks of one kind in a row make up an item; the items that have ended are the output list of
the terminal event.  Random ids are numbers here.

* `convert`: the events for the lines of a stream. -/

namespace Tokilake.Responses.Stream

/-! ### Chunks -/

structure Function where
  name : String := ""
  arguments : String := ""
  deriving DecidableEq

structure ToolCall where
  index : ℤ
  id : String := ""
  function : Option Function := none
  deriving DecidableEq

structure Delta where
  content : String := ""
  role : String := ""
  toolCalls : List ToolCall := []
  reasoningContent : String := ""
  deriving DecidableEq

structure Choice where
  index : ℤ
  delta : Delta
  finishReason : Option String := none
  deriving DecidableEq

inductive ItemType
  | message
  | functionCall
  | reasoning
  deriving DecidableEq

def getResponseType (delta : Delta) : ItemType :=
  if delta.toolCalls ≠ [] then .functionCall
  else if delta.reasoningContent ≠ "" then .reasoning
  else .message

/-! ### Items and events -/

inductive Status
  | inProgress
  | completed
  | failed
  | incomplete
  deriving DecidableEq

def convertChatStatusToResponses (status : String) : Status :=
  if status = "content_filter" then .failed
  else if status = "length" then .incomplete
  else .completed

inductive PartType
  | outputText
  | summaryText
  deriving DecidableEq

structure Part where
  type : PartType
  text : String
  deriving DecidableEq

structure Body where
  type : ItemType
  role : String := ""
  content : List Part := []
  arguments : Option String := none
  callId : String := ""
  name : String := ""
  deriving DecidableEq

structure Item extends Body where
  id : ℕ
  status : Status
  deriving DecidableEq

inductive EventType
  | created
  | inProgress
  | completed
  | failed
  | incomplete
  | outputItemAdded
  | outputItemDone
  | contentPartAdded
  | contentPartDone
  | outputTextDelta
  | outputTextDone
  | reasoningSummaryPartAdded
  | reasoningSummaryPartDone
  | reasoningSummaryTextDelta
  | reasoningSummaryTextDone
  | functionCallArgumentsDelta
  | functionCallArgumentsDone
  | error
  deriving DecidableEq

structure Event where
  type : EventType
  sequenceNumber : Option ℕ := none
  itemId : Option ℕ := none
  outputIndex : Option ℕ := none
  contentIndex : Option ℕ := none
  summaryIndex : Option ℕ := none
  delta : Option String := none
  text : Option String := none
  part : Option Part := none
  item : Option Item := none
  arguments : Option String := none
  output : Option (List Item) := none
  status : Option Status := none
  deriving DecidableEq

structure Converter where
  sequenceNumber : ℕ := 0
  lastChoiceIndex : ℤ := -1
  lastResponseType : Option ItemType := none
  outputIndex : ℕ := 0
  contentIndex : ℕ := 0
  summaryIndex : ℕ := 0
  output : List Item := []
  item : Option Item := none
  part : Option Part := none
  content : List Part := []
  itemId : ℕ := 0
  isFirstResponse : Bool := true
  nowStatus : Option Status := none
  lastToolCallIndex : ℤ := 0
  events : List Event := []
  deriving DecidableEq

namespace Converter

variable (c : Converter)

def send (e : Event) : Converter :=
  { c with
    sequenceNumber := c.sequenceNumber + 1
    events := c.events ++ [{ e with sequenceNumber := some c.sequenceNumber }] }

def sendError (text : String) : Converter :=
  { c with events := c.events ++ [{ type := .error, text := some text }] }

/-! ### Parts -/

@[simp] def addContent (part : Part) : Converter :=
  { c with content := c.content ++ [part], part := none }

def doneMessagePart : Converter :=
  match c.part with
  | none => c
  | some part =>
    let c := c.send
      { type := .outputTextDone, itemId := some c.itemId, outputIndex := some c.outputIndex
        contentIndex := some c.contentIndex, text := some part.text }
    let c := c.send
      { type := .contentPartDone, itemId := some c.itemId, outputIndex := some c.outputIndex
        contentIndex := some c.contentIndex, part := some part }
    addContent { c with contentIndex := c.contentIndex + 1 } part

def doneReasoningPart : Converter :=
  match c.part with
  | none => c
  | some part =>
    let c := c.send
      { type := .reasoningSummaryTextDone, itemId := some c.itemId
        outputIndex := some c.outputIndex, summaryIndex := some c.summaryIndex
        text := some part.text }
    let c := c.send
      { type := .reasoningSummaryPartDone, itemId := some c.itemId
        outputIndex := some c.outputIndex, summaryIndex := some c.summaryIndex, part := some part }
    addContent { c with summaryIndex := c.summaryIndex + 1 } part

def doneFunctionCall : Converter :=
  c.send
    { type := .functionCallArgumentsDone, itemId := some c.itemId, outputIndex := some c.outputIndex
      arguments := c.item.bind fun item => item.arguments }

def extendPart (type : PartType) (added delta : EventType) (text : String) : Converter :=
  let c := match c.part with
    | some _ => c
    | none => send { c with part := some ⟨type, ""⟩ }
        { type := added, itemId := some c.itemId, outputIndex := some c.outputIndex
          contentIndex := some c.contentIndex, part := some ⟨type, ""⟩ }
  let c := c.send
    { type := delta, itemId := some c.itemId, outputIndex := some c.outputIndex
      contentIndex := some c.contentIndex, delta := some text }
  { c with part := c.part.map fun part => { part with text := part.text ++ text } }

variable (choice : Choice)

def processMessage : Converter :=
  let c := if c.lastChoiceIndex ≠ choice.index then c.doneMessagePart else c
  c.extendPart .outputText .contentPartAdded .outputTextDelta choice.delta.content

def processReasoning : Converter :=
  let c := if c.lastChoiceIndex ≠ choice.index then c.doneReasoningPart else c
  c.extendPart .summaryText .reasoningSummaryPartAdded .reasoningSummaryTextDelta
    choice.delta.reasoningContent

def firstFunction (delta : Delta) : Option Function := delta.toolCalls.head?.bind ToolCall.function

def addArguments (f : Function) (item : Item) : Item :=
  { item with arguments := some (item.arguments.getD "" ++ f.arguments) }

def processFunctionCall : Converter :=
  match firstFunction choice.delta with
  | none =>
    c.send
      { type := .functionCallArgumentsDelta, itemId := some c.itemId
        outputIndex := some c.outputIndex }
  | some f =>
    send { c with item := c.item.map (addArguments f) }
      { type := .functionCallArgumentsDelta, itemId := some c.itemId
        outputIndex := some c.outputIndex, delta := some f.arguments }

/-! ### Items -/

def donePart : Converter :=
  match c.lastResponseType with
  | some .message => c.doneMessagePart
  | some .reasoning => c.doneReasoningPart
  | some .functionCall => c.doneFunctionCall
  | none => c

def finished (item : Item) : Item :=
  { item with status := c.nowStatus.getD .completed, content := c.content }

def closeItem (item : Item) : Converter :=
  { c with
    output := c.output ++ [item], item := none, content := [], outputIndex := c.outputIndex + 1 }

def done : Converter :=
  let c := c.donePart
  match c.item with
  | none => c
  | some item =>
    closeItem (c.send { type := .outputItemDone, outputIndex := some c.outputIndex
                        item := some (c.finished item) }) (c.finished item)

def newBody (delta : Delta) : ItemType → Body
  | .functionCall =>
    match delta.toolCalls with
    | [] => { type := .functionCall }
    | tool :: _ =>
      match tool.function with
      | none => { type := .functionCall }
      | some f =>
        { type := .functionCall, arguments := some f.arguments, callId := tool.id, name := f.name }
  | type => { type, role := delta.role }

def openItem (item : Item) : Converter :=
  send { c with item := some item, itemId := item.id }
    { type := .outputItemAdded, item := some item }

def createNewItem (delta : Delta) (currentType : ItemType) : Converter :=
  let c := if c.item.isSome then c.done else c
  c.openItem { newBody delta currentType with id := c.itemId + 1, status := .inProgress }

/-! ### Lines -/

def toolCallIndex (delta : Delta) : ℤ :=
  (delta.toolCalls.head?.map ToolCall.index).getD c.lastToolCallIndex

def processContent (currentType : ItemType) : Converter :=
  match currentType with
  | .reasoning => c.processReasoning choice
  | .functionCall => c.processFunctionCall choice
  | .message => c.processMessage choice

@[simp] def setLast (index : ℤ) (type : ItemType) : Converter :=
  { c with lastChoiceIndex := index, lastResponseType := some type }

def processItem : Converter :=
  (c.processContent choice (getResponseType choice.delta)).setLast choice.index
    (getResponseType choice.delta)

def note : Converter :=
  { c with
    nowStatus := (choice.finishReason.map convertChatStatusToResponses).or c.nowStatus
    lastToolCallIndex := c.toolCallIndex choice.delta }

def processChoice : Converter :=
  if c.lastResponseType ≠ some (getResponseType choice.delta) ∨
      c.lastToolCallIndex ≠ c.toolCallIndex choice.delta then
    ((c.note choice).createNewItem choice.delta (getResponseType choice.delta)).processItem choice
  else (c.note choice).processItem choice

def processChoices (choices : List Choice) : Converter := choices.foldl processChoice c

def finalizeStream : Converter :=
  let c := if c.item.isSome then c.done else c
  let type : EventType :=
    match c.nowStatus with
    | some .failed => .failed
    | some .incomplete => .incomplete
    | _ => .completed
  c.send { type, output := some c.output, status := c.nowStatus }

def start : Converter :=
  if c.isFirstResponse then
    let c := c.send { type := .created, output := some c.output, status := some .inProgress }
    let c := c.send { type := .inProgress, output := some c.output, status := some .inProgress }
    { c with isFirstResponse := false }
  else c

end Converter

inductive Line
  | chunk (choices : List Choice)
  | malformed (text : String)
  | done
  deriving DecidableEq

def processStreamData (c : Converter) : Line → Converter
  | .done => c.finalizeStream
  | .malformed text => c.sendError text
  | .chunk choices => c.start.processChoices choices

def convert (lines : List Line) : Converter := lines.foldl processStreamData {}

/-- The output list of the terminal event. -/
def terminalOutput (events : List Event) : List Item :=
  (events.getLast?.bind Event.output).getD []

end Tokilake.Responses.Stream
