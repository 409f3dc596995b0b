import EventContracts.Proofs.IdentifierTexts
import EventContracts.Proofs.ReferenceClosure

/-! What a document keeps of the events of a contract. Channels, operations and messages are put
into maps under identifiers, and one with an identifier that is there already takes its place. As
long as the identifiers of the channels and those of the operations are pairwise different, nothing
is lost: the identifiers of messages are different then. -/

namespace EventContracts

namespace Draft

/-- The message of an event, under its identifier. -/
def payloadMessage (event : Event) (payload : SchemaObject) : String × Message :=
  (messageId event, {
    name := event.name, title := event.name, summary := event.description, payload := payload,
    examples := event.examples })

/-- The message of an acknowledgement, under its identifier. -/
def ackMessage (event : Event) (payload : SchemaObject) : String × Message :=
  (ackId event, {
    name := event.name, title := "Acknowledgement for " ++ event.name, payload := payload })

/-- The operation of an event, under its identifier. -/
def eventOperation (ns : Namespace) (event : Event) : String × Operation :=
  let channelId := Identifier.ofNamespace ns.path
  (operationId channelId event, {
    action := .ofDirection event.direction
    channel := .channel channelId
    messages := [.message channelId (messageId event)]
    summary := event.description
    security := ns.security.map Reference.securityScheme
    reply := event.ack.map fun _ => ⟨.channel channelId, [.message channelId (ackId event)]⟩ })

/-- The operations of a namespace. -/
def namespaceOperations (ns : Namespace) : Fields Operation := ns.events.map (eventOperation ns)

variable {setting : Setting} {table components : AliasTable SchemaObject} {draft later : Draft}

/-- Whether a table has all components of the schema object of a node in a direction. -/
def Shows (setting : Setting) (table : AliasTable SchemaObject) (node : Node)
    (direction : Direction) (s : SchemaObject) : Prop :=
  Document.depicter.replay setting table (Document.depicter.walk node direction) = .ok s

/-- The messages of an event, with schema objects that a table shows. -/
inductive Sends (setting : Setting) (table : AliasTable SchemaObject) (event : Event) :
    Fields Message → Prop where
  | alone {payload} (acked : event.ack = none)
      (shown : Shows setting table event.payload event.direction payload) :
      Sends setting table event [payloadMessage event payload]
  | acknowledged {payload ack reply} (acked : event.ack = some ack)
      (shown : Shows setting table event.payload event.direction payload)
      (replied : Shows setting table ack event.direction.flip reply) :
      Sends setting table event [payloadMessage event payload, ackMessage event reply]

lemma Sends.mono {event : Event} {messages : Fields Message} (ext : table.Extends components)
    (sent : Sends setting table event messages) : Sends setting components event messages := by
  cases sent with
  | alone acked shown => exact .alone acked (Depicter.replay_extends ext shown)
  | acknowledged acked shown replied =>
    exact .acknowledged acked (Depicter.replay_extends ext shown)
      (Depicter.replay_extends ext replied)

/-- Lists of messages for events, one for each of them. -/
abbrev SendsAll (setting : Setting) (table : AliasTable SchemaObject) :
    List Event → List (Fields Message) → Prop :=
  List.Forall₂ (Sends setting table)

/-- The channel of a namespace, under its identifier, with messages of all its events. -/
def Hosts (setting : Setting) (table : AliasTable SchemaObject) (ns : Namespace)
    (channel : String × Channel) : Prop :=
  ∃ parts, SendsAll setting table ns.events parts ∧
    channel = (Identifier.ofNamespace ns.path,
      ⟨ns.path, Fields.ofPairs parts.flatten, Channel.socketBinding⟩)

lemma SendsAll.mono {events : List Event} {parts : List (Fields Message)}
    (ext : table.Extends components) (sent : SendsAll setting table events parts) :
    SendsAll setting components events parts :=
  sent.imp fun _ _ => Sends.mono ext

lemma Hosts.mono {ns : Namespace} {channel : String × Channel} (ext : table.Extends components)
    (hosts : Hosts setting table ns channel) : Hosts setting components ns channel := by
  obtain ⟨parts, sent, same⟩ := hosts
  exact ⟨parts, sent.mono ext, same⟩

lemma depicting_shown {direction : Direction} {node : Node} {s : SchemaObject}
    (steady : Document.depicter.Steady setting (fun _ => True) draft.components)
    (h : Draft.depicting (Document.depict setting direction node) draft = (.ok s, later)) :
    Document.depicter.Steady setting (fun _ => True) later.components ∧
      draft.components.Extends later.components ∧ Shows setting later.components node direction s ∧
      later = { draft with components := later.components } := by
  obtain ⟨components, made, rfl⟩ := depicting_made h
  obtain ⟨ext, after, replayed⟩ := steady.depict Document.uniform
    (fun _ _ _ _ => trivial) (fun _ _ => trivial) made
  exact ⟨after, ext, replayed _ (.refl _), rfl⟩

/-- What an event adds: its messages and its operation. -/
lemma addEvent_ok {ns : Namespace} {messages messages' : Fields Message} {event : Event}
    (steady : Document.depicter.Steady setting (fun _ => True) draft.components)
    (h : addEvent setting ns (Identifier.ofNamespace ns.path) messages event draft =
      (.ok messages', later)) :
    Document.depicter.Steady setting (fun _ => True) later.components ∧
      draft.components.Extends later.components ∧
      (∃ more, Sends setting later.components event more ∧
        messages' = Fields.merge messages more) ∧
      later.channels = draft.channels ∧
      later.operations = Fields.merge draft.operations [eventOperation ns event] := by
  rw [addEvent] at h
  obtain ⟨payload, middle, made, h⟩ := bind_ok h
  obtain ⟨steady, ext, shown, grown⟩ := depicting_shown steady made
  cases acked : event.ack with
  | none =>
    rw [acked] at h
    obtain ⟨⟩ := h
    refine ⟨steady, ext, ⟨_, .alone acked shown, rfl⟩, by rw [grown], ?_⟩
    rw [grown]
    simp [Fields.merge, eventOperation, acked]
  | some ack =>
    rw [acked] at h
    obtain ⟨reply, last, made, h⟩ := bind_ok h
    obtain ⟨steady, ext', replied, grown'⟩ := depicting_shown steady made
    obtain ⟨⟩ := h
    refine ⟨steady, ext.trans ext', ⟨_, .acknowledged acked
      (Depicter.replay_extends ext' shown) replied, rfl⟩, by rw [grown', grown], ?_⟩
    rw [grown', grown]
    simp [Fields.merge, eventOperation, acked]

/-- A draft into which some events of a namespace were put, since an earlier one. -/
structure Filled (setting : Setting) (ns : Namespace) (draft : Draft) (done : List Event)
    (messages : Fields Message) (current : Draft) : Prop where
  steady : Document.depicter.Steady setting (fun _ => True) current.components
  ext : draft.components.Extends current.components
  messages : ∃ parts, SendsAll setting current.components done parts ∧
    messages = Fields.ofPairs parts.flatten
  channels : current.channels = draft.channels
  operations : current.operations =
    Fields.merge draft.operations (done.map (eventOperation ns))

lemma Filled.next {ns : Namespace} {done : List Event} {messages messages' : Fields Message}
    {current : Draft} {event : Event} (filled : Filled setting ns draft done messages current)
    (h : addEvent setting ns (Identifier.ofNamespace ns.path) messages event current =
      (.ok messages', later)) : Filled setting ns draft (done ++ [event]) messages' later := by
  obtain ⟨steady, ext, ⟨more, sent, added⟩, channels, operations⟩ := addEvent_ok filled.steady h
  obtain ⟨parts, before, same⟩ := filled.messages
  constructor
  case steady => exact steady
  case ext => exact filled.ext.trans ext
  case messages =>
    refine ⟨parts ++ [more], List.rel_append (before.mono ext) (.cons sent .nil), ?_⟩
    rw [added, same, List.flatten_append, List.flatten_singleton, Fields.ofPairs_append]
  case channels => exact channels.trans filled.channels
  case operations => rw [operations, filled.operations, List.map_append, Fields.merge_append]; rfl

/-- A draft into which namespaces were put: their channels and operations, in order. -/
structure Assembled (setting : Setting) (done : List Namespace) (draft : Draft) : Prop where
  steady : Document.depicter.Steady setting (fun _ => True) draft.components
  channels : ∃ channels, List.Forall₂ (Hosts setting draft.components) done channels ∧
    draft.channels = Fields.ofPairs channels
  operations : draft.operations = Fields.ofPairs (done.flatMap namespaceOperations)

lemma Assembled.next {ns : Namespace} {done : List Namespace}
    (assembled : Assembled setting done draft)
    (h : addNamespace setting ns draft = (.ok ⟨⟩, later)) :
    Assembled setting (done ++ [ns]) later := by
  rw [addNamespace] at h
  obtain ⟨messages, middle, made, h⟩ := bind_ok h
  have filled : Filled setting ns draft ns.events messages middle :=
    foldlM_prefix (Filled setting ns draft) (fun _ _ _ _ _ _ filled added => filled.next added)
      ⟨assembled.steady, .refl _, ⟨[], .nil, rfl⟩, rfl, rfl⟩ made
  obtain ⟨parts, sent, same⟩ := filled.messages
  obtain ⟨channels, hosted, before⟩ := assembled.channels
  obtain ⟨⟩ := h
  constructor
  case steady => exact filled.steady
  case channels =>
    refine ⟨channels ++ [_], List.rel_append (hosted.imp fun _ _ => Hosts.mono filled.ext)
      (.cons ⟨parts, sent, rfl⟩ .nil), ?_⟩
    rw [Fields.ofPairs_append, ← before, ← filled.channels, same]
    simp only [Fields.merge, List.foldl_cons, List.foldl_nil]
  case operations =>
    simp only [filled.operations, assembled.operations, List.flatMap_append,
      Fields.ofPairs_append]
    simp [namespaceOperations]

end Draft

lemma Contract.drafted_assembled {contract : Contract} {depth : Nat} {patterns : PatternReader}
    {draft : Draft}
    (h : contract.drafted depth patterns = .ok draft) :
    draft.Assembled (contract.setting depth patterns) contract.namespaces :=
  forM_prefix (Draft.Assembled (contract.setting depth patterns))
    (fun _ _ _ _ assembled added => assembled.next added)
    ⟨.empty Document.depicter _ _, ⟨[], .nil, rfl⟩, rfl⟩ (assembled_eq_ok.mp h)

namespace Draft

/-- What the identifiers of the messages and of the operation of an event depend on. -/
def eventKey (event : Event) : List Char × Direction :=
  (Identifier.ofText event.name, event.direction)

lemma ofText_flowLabel (direction : Direction) :
    Identifier.ofText (flowLabel direction) =
      match direction with
      | .input => "Incoming".toList
      | .output => "Outgoing".toList := by
  cases direction <;> decide +kernel

lemma ofText_ack : Identifier.ofText "ack" = "Ack".toList := by decide +kernel

lemma toList_messageId (event : Event) :
    (messageId event).toList =
      Identifier.ofText event.name ++ Identifier.ofText (flowLabel event.direction) := by
  simp [messageId, Identifier.ofParts]

lemma toList_ackId (event : Event) :
    (ackId event).toList = Identifier.ofText event.name ++
      (Identifier.ofText (flowLabel event.direction) ++ "Ack".toList) := by
  simp [ackId, Identifier.ofParts, ofText_ack]

lemma length_flowLabel (direction : Direction) :
    (Identifier.ofText (flowLabel direction)).length = 8 := by
  cases direction <;> decide +kernel

lemma flowLabel_inj {d e : Direction}
    (h : Identifier.ofText (flowLabel d) = Identifier.ofText (flowLabel e)) : d = e := by
  cases d <;> cases e <;> first | rfl | exact absurd h (by decide +kernel)

lemma messageId_inj {a b : Event} (h : messageId a = messageId b) : eventKey a = eventKey b := by
  have chars := congrArg String.toList h
  rw [toList_messageId, toList_messageId] at chars
  obtain ⟨names, flows⟩ := List.append_inj' chars (by simp only [length_flowLabel])
  exact Prod.ext names (flowLabel_inj flows)

lemma ackId_inj {a b : Event} (h : ackId a = ackId b) : eventKey a = eventKey b := by
  have chars := congrArg String.toList h
  rw [toList_ackId, toList_ackId] at chars
  obtain ⟨names, flows⟩ :=
    List.append_inj' chars (by simp only [List.length_append, length_flowLabel])
  exact Prod.ext names (flowLabel_inj (List.append_inj' flows rfl).1)

lemma messageId_ne_ackId (a b : Event) : messageId a ≠ ackId b := by
  intro same
  have last := congrArg (fun s : String => s.toList.getLast?) same
  cases flow : a.direction <;> simp [toList_messageId, toList_ackId, ofText_flowLabel, flow] at last

lemma operationId_of_key (channelId : String) {a b : Event} (h : eventKey a = eventKey b) :
    operationId channelId a = operationId channelId b := by
  obtain ⟨names, flows⟩ := Prod.mk.inj h
  simp [operationId, Identifier.ofParts, names, flows]

/-- The identifiers of the messages of an event. -/
def messageIds (event : Event) : List String :=
  messageId event :: (event.ack.map fun _ => ackId event).toList

lemma messageIds_nodup (event : Event) : (messageIds event).Nodup := by
  cases acked : event.ack <;> simp [messageIds, acked, messageId_ne_ackId]

/-- Events whose operations have different identifiers have no identifier of messages in common. -/
lemma messageIds_disjoint {channelId : String} {a b : Event}
    (different : operationId channelId a ≠ operationId channelId b) :
    List.Disjoint (messageIds a) (messageIds b) := by
  have keys : eventKey a ≠ eventKey b := fun same => different (operationId_of_key channelId same)
  intro id left right
  simp only [messageIds, List.mem_cons, Option.mem_toList,
    Option.map_eq_some_iff] at left right
  rcases left with rfl | ⟨_, -, rfl⟩ <;> rcases right with same | ⟨_, -, same⟩
  · exact keys (messageId_inj same)
  · exact messageId_ne_ackId a b same.symm
  · exact messageId_ne_ackId b a same.symm
  · exact keys (ackId_inj same.symm)

variable {setting : Setting} {table : AliasTable SchemaObject}

lemma SendsAll.names {events : List Event} {parts : List (Fields Message)}
    (sent : SendsAll setting table events parts) :
    Fields.names parts.flatten = events.flatMap messageIds := by
  induction sent with
  | nil => rfl
  | cons first _ ih =>
    rw [List.flatten_cons, List.flatMap_cons, ← ih]
    cases first <;> simp_all [Fields.names, messageIds, payloadMessage, ackMessage]

end Draft

/-- The identifiers of the operations of a contract. -/
def Contract.operationIds (contract : Contract) : List String :=
  contract.namespaces.flatMap fun ns =>
    ns.events.map (Draft.operationId (Identifier.ofNamespace ns.path))

/-- Whether a document has an operation for an event of a namespace, under its identifier, with
references to a channel with the path of the namespace, and to messages in it with schema objects of
the payload and of the acknowledgement. -/
def Document.Delivers (document : Document) (shows : Node → Direction → SchemaObject → Prop)
    (ns : Namespace) (event : Event) : Prop :=
  ∃ operation channelId channel messageId message,
    Fields.get? (Draft.operationId (Identifier.ofNamespace ns.path) event) document.operations =
      some operation ∧
    operation.action = .ofDirection event.direction ∧
    operation.channel = .channel channelId ∧
    Fields.get? channelId document.channels = some channel ∧ channel.address = ns.path ∧
    operation.messages = [.message channelId messageId] ∧
    Fields.get? messageId channel.messages = some message ∧
    message.name = event.name ∧ shows event.payload event.direction message.payload ∧
    match event.ack with
    | none => operation.reply = none
    | some ack => ∃ ackId reply,
      operation.reply = some ⟨.channel channelId, [.message channelId ackId]⟩ ∧
      Fields.get? ackId channel.messages = some reply ∧
      reply.name = event.name ∧ shows ack event.direction.flip reply.payload

namespace Draft.Assembled

variable {setting : Setting} {draft : Draft} {namespaces : List Namespace}

lemma names_hosted {table : AliasTable SchemaObject} {channels : List (String × Channel)}
    (hosted : List.Forall₂ (Hosts setting table) namespaces channels) :
    Fields.names channels = namespaces.map fun ns => Identifier.ofNamespace ns.path := by
  induction hosted with
  | nil => rfl
  | cons first _ ih =>
    obtain ⟨parts, -, rfl⟩ := first
    rw [List.map_cons, ← ih, Fields.names, List.map_cons, Fields.names]

lemma names_operations :
    Fields.names (namespaces.flatMap namespaceOperations) =
      namespaces.flatMap fun ns =>
        ns.events.map (operationId (Identifier.ofNamespace ns.path)) := by
  simp only [Fields.names, List.map_flatMap, namespaceOperations, List.map_map]
  rfl

/-- With different identifiers for the operations of a namespace, all its messages are there. -/
lemma messages_nodup {table : AliasTable SchemaObject} {channelId : String} {events : List Event}
    {parts : List (Fields Message)} (sent : SendsAll setting table events parts)
    (nodup : (events.map (operationId channelId)).Nodup) :
    (Fields.names parts.flatten).Nodup := by
  rw [sent.names, List.nodup_flatMap]
  refine ⟨fun event _ => messageIds_nodup event, ?_⟩
  exact (List.pairwise_map.mp nodup).imp messageIds_disjoint

/-- With different identifiers for the channels and for the operations, every event is delivered. -/
lemma delivers (assembled : draft.Assembled setting namespaces) (config : Config)
    (channelsNodup : (namespaces.map fun ns => Identifier.ofNamespace ns.path).Nodup)
    (operationsNodup : (namespaces.flatMap fun ns =>
      ns.events.map (operationId (Identifier.ofNamespace ns.path))).Nodup)
    {ns : Namespace} (mem : ns ∈ namespaces) {event : Event} (inside : event ∈ ns.events) :
    (draft.finish config).Delivers (fun node direction s =>
      Document.depict setting direction node draft.components = (.ok s, draft.components))
      ns event := by
  have unknown := Document.uniform.unknown
  obtain ⟨channels, hosted, same⟩ := assembled.channels
  rw [← names_hosted hosted] at channelsNodup
  rw [Fields.ofPairs_of_nodup channelsNodup] at same
  obtain ⟨_, here, parts, sent, rfl⟩ := exists_of_forall₂ hosted mem
  have channelFound := Fields.get?_of_mem channelsNodup here
  rw [← same] at channelFound
  have own := (List.nodup_flatMap.mp operationsNodup).1 ns mem
  have messagesNodup := messages_nodup sent own
  rw [Fields.ofPairs_of_nodup messagesNodup] at channelFound
  obtain ⟨fields, part, sends⟩ := exists_of_forall₂ sent inside
  have messageFound {id : String} {message : Message} (mem : (id, message) ∈ fields) :
      Fields.get? id parts.flatten = some message :=
    Fields.get?_of_mem messagesNodup (List.mem_flatten.mpr ⟨fields, part, mem⟩)
  rw [← names_operations] at operationsNodup
  have operations := assembled.operations
  rw [Fields.ofPairs_of_nodup operationsNodup] at operations
  have operationFound : Fields.get? (eventOperation ns event).1 draft.operations =
      some (eventOperation ns event).2 := by
    rw [operations]
    exact Fields.get?_of_mem operationsNodup
      (List.mem_flatMap.mpr ⟨ns, mem, List.mem_map_of_mem inside⟩)
  cases sends with
  | @alone payload acked shown =>
    refine ⟨_, _, _, messageId event, (payloadMessage event payload).2, operationFound, rfl, rfl,
      channelFound, rfl, rfl, messageFound (by simp [payloadMessage]), rfl,
      Depicter.depict_of_replay unknown shown, ?_⟩
    simp [eventOperation, acked]
  | @acknowledged payload ack reply acked shown replied =>
    refine ⟨_, _, _, messageId event, (payloadMessage event payload).2, operationFound, rfl, rfl,
      channelFound, rfl, rfl, messageFound (by simp [payloadMessage]), rfl,
      Depicter.depict_of_replay unknown shown, ?_⟩
    rw [acked]
    exact ⟨ackId event, (ackMessage event reply).2, by simp [eventOperation, acked],
      messageFound (by simp [ackMessage]), rfl, Depicter.depict_of_replay unknown replied⟩

end Draft.Assembled

/-- What a document keeps of a contract. There is a channel for every namespace if and only if the
identifiers of the namespaces are pairwise different, and an operation for every event if and only
if the identifiers of the operations are; and when both are, the references of every operation lead
to the channel and to the messages of its event. -/
theorem documents_deliver_events (contract : Contract) (config : Config) (depth : Nat)
    (patterns : PatternReader)
    (artifacts : Artifacts) (generated : contract.generate config depth patterns = .ok artifacts) :
    (artifacts.document.channels.length = contract.namespaces.length ↔
      contract.namespaceIds.Nodup) ∧
    (artifacts.document.operations.length = (contract.namespaces.flatMap Namespace.events).length ↔
      contract.operationIds.Nodup) ∧
    (contract.namespaceIds.Nodup → contract.operationIds.Nodup →
      Fields.names artifacts.document.channels = contract.namespaceIds ∧
      Fields.names artifacts.document.operations = contract.operationIds ∧
      ∃ draft, contract.drafted depth patterns = .ok draft ∧
        artifacts.document = draft.finish config ∧
        ∀ ns ∈ contract.namespaces, ∀ event ∈ ns.events,
          artifacts.document.Delivers (fun node direction s =>
            Document.depict (contract.setting depth patterns) direction node draft.components =
              (.ok s, draft.components)) ns event) := by
  obtain ⟨draft, typed, drafted, -, rfl⟩ := Contract.generate_ok generated
  have assembled := Contract.drafted_assembled drafted
  obtain ⟨channels, hosted, same⟩ := assembled.channels
  have channelNames : Fields.names channels = contract.namespaceIds :=
    Draft.Assembled.names_hosted hosted
  have operationNames :
      Fields.names (contract.namespaces.flatMap Draft.namespaceOperations) =
        contract.operationIds := Draft.Assembled.names_operations
  have operations := assembled.operations
  refine ⟨?_, ?_, ?_⟩
  · rw [← channelNames, ← Fields.length_ofPairs, ← same, hosted.length_eq]
    rfl
  · have count : (contract.namespaces.flatMap Namespace.events).length =
        (contract.namespaces.flatMap Draft.namespaceOperations).length := by
      simp [List.length_flatMap, Draft.namespaceOperations]
    rw [← operationNames, ← Fields.length_ofPairs, ← operations, count]
    rfl
  · intro channelsNodup operationsNodup
    refine ⟨?_, ?_, draft, drafted, rfl, ?_⟩
    · rw [← channelNames] at channelsNodup ⊢
      exact congrArg Fields.names (same.trans (Fields.ofPairs_of_nodup channelsNodup))
    · rw [← operationNames] at operationsNodup ⊢
      exact congrArg Fields.names (operations.trans (Fields.ofPairs_of_nodup operationsNodup))
    · intro ns mem event inside
      exact assembled.delivers config channelsNodup operationsNodup mem inside

/-- Two namespaces, with events of one name in both and in both directions. -/
def marketContract : Contract where
  namespaces := [
    { path := "/", events := [
      { name := "bid", direction := .input, payload := .of (.tuple [.of .null] none),
        ack := some (.of (.tuple [] none)) },
      { name := "bid", direction := .output, payload := .of (.tuple [] none) }] },
    { path := "/stall", events := [
      { name := "bid", direction := .input, payload := .of (.tuple [] none) }] }]
  definitions := []

theorem market_delivers_events :
    ∃ artifacts, marketContract.generate {} = .ok artifacts ∧
      Fields.names artifacts.document.channels = ["Root", "Stall"] ∧
      Fields.names artifacts.document.operations =
        ["RootReceiveBid", "RootSendBid", "StallReceiveBid"] ∧
      ∃ draft, marketContract.drafted = .ok draft ∧
        ∀ ns ∈ marketContract.namespaces, ∀ event ∈ ns.events,
          artifacts.document.Delivers (fun node direction s =>
            Document.depict marketContract.setting direction node draft.components =
              (.ok s, draft.components)) ns event := by
  have succeeds : (marketContract.generate {}).isOk = true := by decide +kernel
  cases generated : marketContract.generate {} with
  | error cause =>
    rw [generated] at succeeds
    cases succeeds
  | ok artifacts =>
    obtain ⟨-, -, kept⟩ := documents_deliver_events marketContract {} _ _ artifacts generated
    obtain ⟨channels, operations, draft, drafted, -, delivered⟩ :=
      kept (by decide +kernel) (by decide +kernel)
    refine ⟨artifacts, rfl, ?_, ?_, draft, drafted, delivered⟩
    · rw [channels]
      decide +kernel
    · rw [operations]
      decide +kernel

/-- Two namespaces with different paths and one identifier. -/
def alleyManifest : Manifest where
  namespaces := [
    ("/chat", { actions := [("ping", {})] }),
    ("/Chat", { emission := [("pong", {})] })]

/-- One channel takes the place of the other one, and the message that the operation of the first
event refers to is gone with it. -/
theorem alley_loses_messages :
    ∃ contract artifacts, alleyManifest.toContract = .ok contract ∧
      contract.generate {} = .ok artifacts ∧ contract.namespaces.length = 2 ∧
      artifacts.document.channels.length = 1 ∧
      ∃ operation, Fields.get? "ChatReceivePing" artifacts.document.operations = some operation ∧
        operation.messages = [.message "Chat" "PingIncoming"] ∧
        ∀ channel, Fields.get? "Chat" artifacts.document.channels = some channel →
          Fields.get? "PingIncoming" channel.messages = none := by
  refine ⟨_, _, rfl, rfl, rfl, rfl, _, rfl, rfl, ?_⟩
  intro channel found
  obtain rfl := Option.some.inj found
  rfl

end EventContracts
