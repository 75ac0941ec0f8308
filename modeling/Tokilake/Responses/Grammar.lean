import Tokilake.Responses.Stream

/-! # The grammar of a Responses stream

`accept` is the step of a client that follows the events by their types and stops at one that is out
of place.  It counts the items, whose ids are numbers here.

* `converter_accepted`: it accepts what the converter sends;
* `positions_iff`: which streams have the right positions. -/

namespace Tokilake.Responses.Grammar

open Responses.Stream Responses.Stream.Converter

/-- The events and items so far, the type of the open item, the open part and its deltas. -/
structure Seen where
  events : ℕ := 0
  items : ℕ := 0
  item : Option ItemType := none
  part : Option Part := none
  deriving DecidableEq

namespace Seen

variable (s : Seen)

def idle : Option Seen := if s.item = none ∧ s.part = none then some s else none

def addItem (e : Event) : Option Seen :=
  match s.item, s.part, e.item with
  | none, none, some item =>
    if item.id = s.items + 1 then some { s with items := s.items + 1, item := some item.type }
    else none
  | _, _, _ => none

def doneItem (e : Event) : Option Seen :=
  match s.item, s.part, e.item with
  | some _, none, some item => if item.id = s.items then some { s with item := none } else none
  | _, _, _ => none

def addPart (item : ItemType) (part : PartType) (e : Event) : Option Seen :=
  if s.item = some item ∧ s.part = none ∧ e.itemId = some s.items then
    some { s with part := some ⟨part, ""⟩ }
  else none

def addDelta (type : PartType) (e : Event) : Option Seen :=
  match s.part, e.delta with
  | some part, some delta =>
    if part.type = type ∧ e.itemId = some s.items then
      some { s with part := some { part with text := part.text ++ delta } }
    else none
  | _, _ => none

def doneText (type : PartType) (e : Event) : Option Seen :=
  if (s.part.map Part.type) = some type ∧ e.text = s.part.map Part.text ∧
    e.itemId = some s.items then
    some s
  else none

def donePart (type : PartType) (e : Event) : Option Seen :=
  if (s.part.map Part.type) = some type ∧ e.part = s.part ∧ e.itemId = some s.items then
    some { s with part := none }
  else none

def functionCall (e : Event) : Option Seen :=
  if s.item = some .functionCall ∧ s.part = none ∧ e.itemId = some s.items then some s else none

def move (e : Event) : Option Seen :=
  match e.type with
  | .created | .inProgress | .completed | .failed | .incomplete => s.idle
  | .outputItemAdded => s.addItem e
  | .outputItemDone => s.doneItem e
  | .contentPartAdded => s.addPart .message .outputText e
  | .outputTextDelta => s.addDelta .outputText e
  | .outputTextDone => s.doneText .outputText e
  | .contentPartDone => s.donePart .outputText e
  | .reasoningSummaryPartAdded => s.addPart .reasoning .summaryText e
  | .reasoningSummaryTextDelta => s.addDelta .summaryText e
  | .reasoningSummaryTextDone => s.doneText .summaryText e
  | .reasoningSummaryPartDone => s.donePart .summaryText e
  | .functionCallArgumentsDelta | .functionCallArgumentsDone => s.functionCall e
  | .error => none

def accept (e : Event) : Option Seen :=
  if e.sequenceNumber = some s.events then
    (s.move e).map fun t => { t with events := s.events + 1 }
  else none

end Seen

open Seen

def seen (c : Converter) : Seen :=
  ⟨c.sequenceNumber, c.itemId, c.item.map fun item => item.type, c.part⟩

/-! ### One event -/

/-- The client has accepted what was sent, and knows what is open. -/
structure Good (c : Converter) : Prop where
  accepted : c.events.foldlM accept {} = some (seen c)
  id : ∀ item ∈ c.item, item.id = c.itemId
  added : c.itemId ≠ 0 → ∃ e ∈ c.events, e.item.isSome ∧ e.outputIndex = none

variable {c : Converter}

/-- A converter that has sent `e` and knows what the client then knows is good again. -/
lemma Good.sent {c' : Converter} {e : Event} (h : Good c) (hsend : c'.events = (c.send e).events)
    (hseq : c'.sequenceNumber = c.sequenceNumber + 1)
    (hmove : (seen c).move e = some { seen c' with events := c.sequenceNumber })
    (hid : ∀ item ∈ c'.item, item.id = c'.itemId)
    (hadded : c'.itemId = c.itemId ∨ e.item.isSome ∧ e.outputIndex = none) : Good c' where
  accepted := by
    have haccept : accept (seen c) { e with sequenceNumber := some c.sequenceNumber } =
        some (seen c') := by
      refine (if_pos rfl).trans ((congrArg _ hmove).trans ?_)
      show some { seen c' with events := c.sequenceNumber + 1 } = some (seen c')
      rw [← hseq]
      rfl
    rw [hsend, Converter.send, List.foldlM_append, h.accepted, Option.bind_eq_bind,
      Option.bind_some,
      List.foldlM_cons, haccept]
    rfl
  id := hid
  added hne := by
    rw [hsend]
    rcases hadded with hsame | hnew
    · obtain ⟨e', he', h'⟩ := h.added (hsame ▸ hne)
      exact ⟨e', List.mem_append_left _ he', h'⟩
    · exact ⟨_, List.mem_append_right _ (List.mem_singleton_self _), hnew⟩

/-- An event that leaves what is open as it is. -/
lemma Good.send {e : Event} (h : Good c) (hmove : (seen c).move e = some (seen c)) :
    Good (c.send e) := h.sent rfl rfl hmove h.id (.inl rfl)

/-! ### Parts -/

def partType : ItemType → Option PartType
  | .message => some .outputText
  | .reasoning => some .summaryText
  | .functionCall => none

/-- An item of the given type is open, and so is at most a part that belongs to it. -/
structure Inside (c : Converter) (type : ItemType) : Prop extends Good c where
  started : c.isFirstResponse = false
  id_ne : c.itemId ≠ 0
  item_type : (c.item.map fun item => item.type) = some type
  part_type : ∀ part ∈ c.part, partType type = some part.type

lemma inside_doneMessagePart (h : Inside c .message) :
    Inside c.doneMessagePart .message ∧ c.doneMessagePart.part = none := by
  unfold doneMessagePart
  cases hpart : c.part with
  | none => exact ⟨h, hpart⟩
  | some part =>
    have htype := (Option.some.inj (h.part_type part hpart)).symm
    have htext := h.toGood.send (e :=
      { type := .outputTextDone, itemId := some c.itemId, outputIndex := some c.outputIndex
        contentIndex := some c.contentIndex, text := some part.text })
      (by simp [move, doneText, seen, hpart, htype])
    refine ⟨⟨htext.sent rfl rfl ?_ h.id (.inl rfl), h.started, h.id_ne, h.item_type, nofun⟩, rfl⟩
    simp [move, Seen.donePart, seen, Converter.send, hpart, htype]

lemma inside_doneReasoningPart (h : Inside c .reasoning) :
    Inside c.doneReasoningPart .reasoning ∧ c.doneReasoningPart.part = none := by
  unfold doneReasoningPart
  cases hpart : c.part with
  | none => exact ⟨h, hpart⟩
  | some part =>
    have htype := (Option.some.inj (h.part_type part hpart)).symm
    have htext := h.toGood.send (e :=
      { type := .reasoningSummaryTextDone, itemId := some c.itemId
        outputIndex := some c.outputIndex, summaryIndex := some c.summaryIndex
        text := some part.text })
      (by simp [move, doneText, seen, hpart, htype])
    refine ⟨⟨htext.sent rfl rfl ?_ h.id (.inl rfl), h.started, h.id_ne, h.item_type, nofun⟩, rfl⟩
    simp [move, Seen.donePart, seen, Converter.send, hpart, htype]

/-- The events that add a part and extend it. -/
structure PartEvents (type : ItemType) (part : PartType) (added delta : EventType) : Prop where
  part_type : partType type = some part
  added_move : ∀ (s : Seen) (e : Event), e.type = added → s.move e = s.addPart type part e
  delta_move : ∀ (s : Seen) (e : Event), e.type = delta → s.move e = s.addDelta part e

lemma messageEvents : PartEvents .message .outputText .contentPartAdded .outputTextDelta :=
  ⟨rfl, fun s e h => by rw [move, h], fun s e h => by rw [move, h]⟩

lemma reasoningEvents :
    PartEvents .reasoning .summaryText .reasoningSummaryPartAdded .reasoningSummaryTextDelta :=
  ⟨rfl, fun s e h => by rw [move, h], fun s e h => by rw [move, h]⟩

lemma inside_extendPart {type : ItemType} {part : PartType} {added delta : EventType}
    (he : PartEvents type part added delta) (h : Inside c type) (text : String) :
    Inside (c.extendPart part added delta text) type := by
  -- the part is open, before or after it was added
  have hdelta : ∀ {c : Converter}, Inside c type → ∀ p, c.part = some p → Inside
      { c.send { type := delta, itemId := some c.itemId, outputIndex := some c.outputIndex
                 contentIndex := some c.contentIndex, delta := some text } with
        part := c.part.map fun part => { part with text := part.text ++ text } } type := by
    intro c h p hp
    have hptype := (Option.some.inj (he.part_type.symm.trans (h.part_type p hp))).symm
    refine ⟨h.toGood.sent rfl rfl ?_ h.id (.inl rfl), h.started, h.id_ne, h.item_type, ?_⟩
    · rw [he.delta_move _ _ rfl]
      simp [addDelta, seen, Converter.send, hp, hptype]
    · simp [hp, hptype, he.part_type]
  unfold extendPart
  cases hpart : c.part with
  | some p => exact hdelta h p hpart
  | none =>
    have hadd : Inside (send { c with part := some ⟨part, ""⟩ }
        { type := added, itemId := some c.itemId, outputIndex := some c.outputIndex
          contentIndex := some c.contentIndex, part := some ⟨part, ""⟩ }) type := by
      refine ⟨h.toGood.sent rfl rfl ?_ h.id (.inl rfl), h.started, h.id_ne, h.item_type, ?_⟩
      · rw [he.added_move _ _ rfl, addPart, if_pos ⟨h.item_type, hpart, rfl⟩]
        rfl
      · rintro _ ⟨⟩
        exact he.part_type
    exact hdelta hadd _ rfl

lemma inside_processItem {choice : Choice} (h : Inside c (getResponseType choice.delta)) :
    Inside (c.processItem choice) (getResponseType choice.delta) := by
  suffices hcontent : Inside (c.processContent choice (getResponseType choice.delta))
      (getResponseType choice.delta) from
    ⟨⟨hcontent.accepted, hcontent.id, hcontent.added⟩, hcontent.started, hcontent.id_ne,
      hcontent.item_type, hcontent.part_type⟩
  cases htype : getResponseType choice.delta with
  | message =>
    rw [htype] at h
    refine inside_extendPart messageEvents ?_ _
    split_ifs
    · exact (inside_doneMessagePart h).1
    · exact h
  | reasoning =>
    rw [htype] at h
    refine inside_extendPart reasoningEvents ?_ _
    split_ifs
    · exact (inside_doneReasoningPart h).1
    · exact h
  | functionCall =>
    rw [htype] at h
    have hpart := Option.eq_none_iff_forall_ne_some.mpr fun p hp => nomatch h.part_type p hp
    unfold processContent processFunctionCall
    dsimp only
    split
    · exact ⟨h.toGood.send (if_pos ⟨h.item_type, hpart, rfl⟩), h.started, h.id_ne, h.item_type,
        h.part_type⟩
    rename_i f _
    have hitem : ((c.item.map (addArguments f)).map fun item => item.type) =
        c.item.map fun item => item.type := by rw [Option.map_map]; rfl
    refine ⟨h.toGood.sent rfl rfl ?_ ?_ (.inl rfl), h.started, h.id_ne,
      hitem.trans h.item_type, h.part_type⟩
    · refine (if_pos ⟨h.item_type, hpart, rfl⟩).trans ?_
      simp only [seen, Converter.send, hitem]
    · intro item hmem
      obtain ⟨item', hmem', rfl⟩ := Option.map_eq_some_iff.mp hmem
      exact h.id item' hmem'

/-! ### Items -/

/-- Nothing is open. -/
structure Idle (c : Converter) : Prop extends Good c where
  item_none : c.item = none
  part_none : c.part = none

lemma inside_donePart {type : ItemType} (h : Inside c type)
    (hlast : c.lastResponseType = some type) : Inside c.donePart type ∧ c.donePart.part = none := by
  unfold Converter.donePart
  rw [hlast]
  cases type with
  | message => exact inside_doneMessagePart h
  | reasoning => exact inside_doneReasoningPart h
  | functionCall =>
    have hpart := Option.eq_none_iff_forall_ne_some.mpr fun p hp => nomatch h.part_type p hp
    exact ⟨⟨h.toGood.send (if_pos ⟨h.item_type, hpart, rfl⟩), h.started, h.id_ne, h.item_type,
      h.part_type⟩, hpart⟩

lemma idle_done {type : ItemType} (h : Inside c type) (hlast : c.lastResponseType = some type) :
    Idle c.done ∧ c.done.isFirstResponse = false ∧ c.done.itemId ≠ 0 := by
  obtain ⟨hin, hpart⟩ := inside_donePart h hlast
  unfold done
  obtain ⟨item, hitem, rfl⟩ := Option.map_eq_some_iff.mp hin.item_type
  simp only [hitem]
  refine ⟨⟨hin.toGood.sent rfl rfl ?_ nofun (.inl rfl), rfl, hpart⟩, hin.started, hin.id_ne⟩
  have hid := hin.id item hitem
  simp [move, doneItem, seen, hitem, hpart, Converter.send, closeItem, finished, hid]

lemma inside_openItem (h : Idle c) (hstarted : c.isFirstResponse = false) (body : Body) :
    Inside (c.openItem { body with id := c.itemId + 1, status := .inProgress }) body.type := by
  refine ⟨h.toGood.sent rfl rfl ?_ ?_ (.inr ⟨rfl, rfl⟩), hstarted, Nat.succ_ne_zero _, rfl, ?_⟩
  · simp [move, addItem, seen, openItem, h.item_none, h.part_none, Converter.send]
  · rintro _ ⟨⟩
    rfl
  · intro part hpart
    cases h.part_none.symm.trans hpart

/-- Between two choices, what is open belongs to the last. -/
def Between (c : Converter) : Prop :=
  Idle c ∧ c.lastResponseType = none ∨ ∃ type, Inside c type ∧ c.lastResponseType = some type

lemma Inside.note {type : ItemType} (h : Inside c type) (choice : Choice) :
    Inside (c.note choice) type :=
  ⟨⟨h.accepted, h.id, h.added⟩, h.started, h.id_ne, h.item_type, h.part_type⟩

lemma newBody_type (delta : Delta) (type : ItemType) : (newBody delta type).type = type := by
  unfold newBody
  cases type with
  | functionCall =>
    dsimp only
    split
    · rfl
    · split <;> rfl
  | message | reasoning => rfl

lemma inside_createNewItem (h : Between c) (hstarted : c.isFirstResponse = false) (choice : Choice)
    (type : ItemType) : Inside ((c.note choice).createNewItem choice.delta type) type := by
  rcases h with ⟨⟨⟨haccepted, hid, hadded⟩, hitem, hpart⟩, _⟩ | ⟨last, hin, hlast⟩
  · have hidle : Idle (c.note choice) := ⟨⟨haccepted, hid, hadded⟩, hitem, hpart⟩
    have hnew := inside_openItem hidle hstarted (newBody choice.delta type)
    rw [newBody_type] at hnew
    unfold createNewItem
    rwa [if_neg (by simp [hidle.item_none])]
  · have hnote := hin.note choice
    obtain ⟨hidle, hdone, _⟩ := idle_done hnote hlast
    have hnew := inside_openItem hidle hdone (newBody choice.delta type)
    rw [newBody_type] at hnew
    obtain ⟨item, hitem, _⟩ := Option.map_eq_some_iff.mp hnote.item_type
    unfold createNewItem
    rwa [if_pos (by simp [hitem])]

lemma inside_processChoice (h : Between c) (hstarted : c.isFirstResponse = false)
    (choice : Choice) : Inside (c.processChoice choice) (getResponseType choice.delta) := by
  unfold processChoice
  split_ifs with hnew
  · exact inside_processItem (inside_createNewItem h hstarted choice _)
  have hsame := not_not.mp (not_or.mp hnew).1
  rcases h with ⟨_, hnone⟩ | ⟨type, hin, hlast⟩
  · cases hnone.symm.trans hsame
  · cases hlast.symm.trans hsame
    exact inside_processItem (hin.note choice)

/-! ### Streams -/

lemma between_processChoices : ∀ (choices : List Choice) {c : Converter}, Between c →
    c.isFirstResponse = false → Between (c.processChoices choices) ∧
      (choices ≠ [] ∨ c.itemId ≠ 0 → (c.processChoices choices).itemId ≠ 0)
  | [], c, h, _ => ⟨h, fun hne => hne.resolve_left (not_not.mpr rfl)⟩
  | choice :: choices, c, h, hstarted => by
    have hin := inside_processChoice h hstarted choice
    have hlast : (c.processChoice choice).lastResponseType =
        some (getResponseType choice.delta) := by
      unfold processChoice
      split_ifs <;> rfl
    obtain ⟨hbetween, hne⟩ := between_processChoices choices (.inr ⟨_, hin, hlast⟩) hin.started
    exact ⟨hbetween, fun _ => hne (.inr hin.id_ne)⟩

lemma idle_send {e : Event} (h : Idle c) (he : ∀ s : Seen, s.move e = s.idle) :
    Idle (c.send e) := by
  refine ⟨h.toGood.send ?_, h.item_none, h.part_none⟩
  simp [he, idle, seen, h.item_none, h.part_none]

lemma between_start (h : Between c) :
    Between c.start ∧ c.start.isFirstResponse = false ∧ c.start.itemId = c.itemId := by
  unfold start
  split_ifs with hfirst
  · rcases h with ⟨hidle, hlast⟩ | ⟨type, hin, _⟩
    · have hcreated := idle_send (e :=
        { type := .created, output := some c.output, status := some .inProgress }) hidle fun _ =>
          rfl
      have hsent := idle_send (e :=
        { type := .inProgress, output := some c.output, status := some .inProgress }) hcreated
        fun _ => rfl
      exact ⟨.inl ⟨⟨⟨hsent.accepted, hsent.id, hsent.added⟩, hsent.item_none, hsent.part_none⟩,
        hlast⟩, rfl, rfl⟩
    · rw [hin.started] at hfirst
      cases hfirst
  · exact ⟨h, Bool.eq_false_iff.mpr hfirst, rfl⟩

lemma idle_finalizeStream (h : Between c) :
    Idle c.finalizeStream ∧ (c.itemId ≠ 0 → c.finalizeStream.itemId ≠ 0) := by
  have hterminal : ∀ {c : Converter} {e : Event}, e.type ∈ [.failed, .incomplete, .completed] →
      Idle c → Idle (c.send e) := by
    intro c e he hidle
    refine idle_send hidle fun s => ?_
    simp only [List.mem_cons, List.not_mem_nil, or_false] at he
    rcases he with h | h | h <;> rw [move, h]
  unfold finalizeStream
  rcases h with ⟨hidle, _⟩ | ⟨type, hin, hlast⟩
  · rw [if_neg (by simp [hidle.item_none])]
    refine ⟨hterminal ?_ hidle, id⟩
    split <;> simp
  obtain ⟨item, hitem, _⟩ := Option.map_eq_some_iff.mp hin.item_type
  obtain ⟨hidle, _, hne⟩ := idle_done hin hlast
  rw [if_pos (by simp [hitem])]
  refine ⟨hterminal ?_ hidle, fun _ => hne⟩
  split <;> simp

lemma between_chunks : ∀ (chunks : List (List Choice)) {c : Converter}, Between c →
    Between ((chunks.map Line.chunk).foldl processStreamData c) ∧
      ((∃ choices ∈ chunks, choices ≠ []) ∨ c.itemId ≠ 0 →
        ((chunks.map Line.chunk).foldl processStreamData c).itemId ≠ 0)
  | [], c, h => ⟨h, fun hne => hne.resolve_left (by simp)⟩
  | choices :: chunks, c, h => by
    obtain ⟨hstart, hstarted, hid⟩ := between_start h
    obtain ⟨hchoices, hne⟩ := between_processChoices choices hstart hstarted
    obtain ⟨hchunks, hne'⟩ := between_chunks chunks hchoices
    refine ⟨hchunks, fun hsome => hne' ?_⟩
    rcases hsome with ⟨choices', hmem, hchoices'⟩ | hc
    · rcases List.mem_cons.mp hmem with rfl | hmem
      · exact .inr (hne (.inl hchoices'))
      · exact .inl ⟨choices', hmem, hchoices'⟩
    · exact .inr (hne (.inr (hid ▸ hc)))

lemma between_init : Between {} := .inl ⟨⟨⟨rfl, nofun, fun h => absurd rfl h⟩, rfl, rfl⟩, rfl⟩

lemma convert_eq (chunks : List (List Choice)) : convert (chunks.map .chunk ++ [.done]) =
      ((chunks.map Line.chunk).foldl processStreamData {}).finalizeStream := by
  rw [convert, List.foldl_append]
  rfl

theorem converter_accepted (chunks : List (List Choice)) :
    ∃ s : Seen, (convert (chunks.map .chunk ++ [.done])).events.foldlM accept {} = some s ∧
      s.item = none ∧ s.part = none := by
  rw [convert_eq]
  have hidle := (idle_finalizeStream (between_chunks chunks between_init).1).1
  refine ⟨_, hidle.accepted, ?_, hidle.part_none⟩
  simp [seen, hidle.item_none]

/-! ### Positions -/

def eventItem (e : Event) : Option ℕ := e.itemId.or (e.item.map fun item => item.id)

/-- The index of the part that an event belongs to, if it belongs to one. -/
def partIndex (e : Event) : Option (Option ℕ) :=
  match e.type with
  | .contentPartAdded | .outputTextDelta | .outputTextDone | .contentPartDone => some e.contentIndex
  | .reasoningSummaryPartAdded | .reasoningSummaryTextDelta | .reasoningSummaryTextDone
  | .reasoningSummaryPartDone => some e.summaryIndex
  | _ => none

def closesPart (id : ℕ) (e : Event) : Bool :=
  e.itemId = some id ∧ (e.type = .contentPartDone ∨ e.type = .reasoningSummaryPartDone)

/-- Events have the position of their item, and the number of parts before theirs. -/
structure Positions (events : List Event) : Prop where
  output : ∀ e ∈ events, ∀ id, eventItem e = some id → ∃ k, e.outputIndex = some k ∧
    ((terminalOutput events)[k]?.map fun item => item.id) = some id
  part : ∀ before e after, events = before ++ e :: after →
    ∀ id index, e.itemId = some id → partIndex e = some index →
      index = some (before.countP (closesPart id))

/-- No event so far is about an item. -/
def Plain (c : Converter) : Prop := c.item = none ∧ ∀ e ∈ c.events, e.itemId = none ∧ e.item = none

lemma Plain.send {e : Event} (h : Plain c) (hid : e.itemId = none) (hitem : e.item = none) :
    Plain (c.send e) := by
  refine ⟨h.1, fun e' he' => ?_⟩
  rcases List.mem_append.mp he' with he' | he'
  · exact h.2 e' he'
  · rw [List.mem_singleton.mp he']
    exact ⟨hid, hitem⟩

lemma positions_of_plain (h : Plain c) : Positions c.events := by
  refine ⟨fun e he id hid => ?_, fun before e after hevents id index hid => ?_⟩
  · obtain ⟨hnone, hitem⟩ := h.2 e he
    rw [eventItem, hnone, hitem] at hid
    cases hid
  · obtain ⟨hnone, _⟩ := h.2 e (by rw [hevents]; simp)
    cases hnone.symm.trans hid

lemma plain_chunks : ∀ {chunks : List (List Choice)} {c : Converter}, Plain c →
    (∀ choices ∈ chunks, choices = []) → Plain ((chunks.map Line.chunk).foldl processStreamData c)
  | [], _, h, _ => h
  | choices :: chunks, c, h, hempty => by
    obtain ⟨rfl, hrest⟩ := List.forall_mem_cons.mp hempty
    refine plain_chunks (c := c.start) ?_ hrest
    unfold start
    split_ifs
    · exact (h.send rfl rfl).send rfl rfl
    · exact h

theorem positions_iff (chunks : List (List Choice)) :
    Positions (convert (chunks.map .chunk ++ [.done])).events ↔
      ∀ choices ∈ chunks, choices = [] := by
  rw [convert_eq]
  constructor
  · intro hpos
    by_contra hsome
    push Not at hsome
    obtain ⟨hbetween, hne⟩ := between_chunks chunks between_init
    obtain ⟨hidle, hne'⟩ := idle_finalizeStream hbetween
    obtain ⟨e, he, hitem, hindex⟩ := hidle.added (hne' (hne (.inl hsome)))
    obtain ⟨item, hitem⟩ := Option.isSome_iff_exists.mp hitem
    obtain ⟨id, hid⟩ : ∃ id, eventItem e = some id := by
      unfold eventItem
      cases e.itemId <;> simp [hitem]
    obtain ⟨k, hk, _⟩ := hpos.output e he id hid
    cases hindex.symm.trans hk
  · intro hempty
    have hinit : Plain {} := ⟨rfl, fun _ he => absurd he List.not_mem_nil⟩
    have hplain : Plain ((chunks.map Line.chunk).foldl processStreamData {}).finalizeStream := by
      have h := plain_chunks hinit hempty
      unfold finalizeStream
      rw [if_neg (by simp [h.1])]
      exact h.send rfl rfl
    exact positions_of_plain hplain

/-- The items have no position, and the only part of the second message has the index 1. -/
theorem positions_of_three_items :
    let text : List Choice := [{ index := 0, delta := { content := "a" } }]
    let thought : List Choice := [{ index := 0, delta := { reasoningContent := "b" } }]
    let events := (convert ([text, thought, text].map .chunk ++ [.done])).events
    (events.filter fun e => e.type = .outputItemAdded).map Event.outputIndex = [none, none, none] ∧
      (events.filter fun e => e.type = .contentPartAdded).map Event.contentIndex =
        [some 0, some 1] ∧ ¬Positions events := by
  intro text thought events
  refine ⟨by decide, by decide, fun h => ?_⟩
  have hmem : ({ type := .outputItemAdded, sequenceNumber := some 2
                 item := some { type := .message, id := 1, status := .inProgress } } : Event) ∈
      events := by decide
  obtain ⟨k, hk, _⟩ := h.output _ hmem 1 rfl
  cases hk

end Tokilake.Responses.Grammar
