import MonitorMerlin.Module.Handlers
import MonitorMerlin.Net.Authentic

/-! # Events with `NULL` strings -/

namespace MonitorMerlin

open ByteImage List

theorem isOk_bind {Value Result : Type} {first : Except BadPointer Value}
    {next : Value → Except BadPointer Result} :
    (first >>= next).isOk = true ↔ ∃ value, first = .ok value ∧ (next value).isOk = true := by
  cases first with
  | error bad => simp [Except.isOk, Except.toBool, bind, Except.bind]
  | ok value => simp [bind, Except.bind]

def StringsInside (env : ReceiveEnv) (struct : NebStruct) (body : Bytes) : Prop :=
  ∀ field ∈ struct.stringFields,
    (loadString body env.base (env.layout.offsetOf struct field)).isSome = true

variable {body : Bytes}

theorem stringAt_ok {base slot : Nat} (inside : (loadString body base slot).isSome = true) :
    stringAt base slot body = .ok ((loadString body base slot).get inside) := by
  obtain ⟨text, loaded⟩ := Option.isSome_iff_exists.mp inside
  simp only [stringAt, loaded, Option.get_some]

section Inside

variable {Rest : Type} {headers : NaemonHeaders} {naemon : Naemon Rest} {env : ReceiveEnv}
  {struct : NebStruct} {source : Bytes} {type : Nat} {world : World Rest}

theorem StringsInside.bodyString (inside : StringsInside env struct body) (field : StringField)
    (member : field ∈ struct.stringFields) :
    bodyString env struct field body = .ok ((loadString body env.base
      (env.layout.offsetOf struct field)).get (inside field member)) :=
  stringAt_ok _

theorem StringsInside.readState (inside : StringsInside env struct body) (headers : NaemonHeaders)
    (output : .statePluginOutput ∈ struct.stringFields)
    (long : .stateLongPluginOutput ∈ struct.stringFields)
    (perf : .statePerfData ∈ struct.stringFields) :
    ∃ state, readState headers env struct body = .ok state := by
  rw [MonitorMerlin.readState, inside.bodyString _ output, inside.bodyString _ long,
    inside.bodyString _ perf]
  exact ⟨_, rfl⟩

theorem StringsInside.readComment (inside : StringsInside env .commentData body)
    (headers : NaemonHeaders) : ∃ ds, readComment headers env body = .ok ds := by
  rw [MonitorMerlin.readComment, inside.bodyString .hostName (by decide),
    inside.bodyString .serviceDescription (by decide), inside.bodyString .authorName (by decide),
    inside.bodyString .commentData (by decide)]
  exact ⟨_, rfl⟩

theorem hostResultHandler_ok (inside : StringsInside env .merlinHostStatus body) :
    (hostResultHandler headers naemon env type source body world).isOk = true := by
  obtain ⟨state, read⟩ := inside.readState headers (by decide) (by decide) (by decide)
  rw [hostResultHandler, inside.bodyString .name (by decide), read]
  rfl

theorem serviceResultHandler_ok (inside : StringsInside env .merlinServiceStatus body) :
    (serviceResultHandler headers naemon env type source body world).isOk = true := by
  obtain ⟨state, read⟩ := inside.readState headers (by decide) (by decide) (by decide)
  rw [serviceResultHandler, inside.bodyString .hostName (by decide),
    inside.bodyString .serviceDescription (by decide), read]
  rfl

theorem handleNotificationData_ok (inside : StringsInside env .notificationData body) :
    (handleNotificationData headers naemon env body world).isOk = true := by
  rw [handleNotificationData, inside.bodyString .hostName (by decide),
    inside.bodyString .serviceDescription (by decide)]
  rfl

theorem handleExternalCommand_ok (inside : StringsInside env .externalCommandData body) :
    (handleExternalCommand headers naemon env body world).isOk = true := by
  rw [handleExternalCommand, inside.bodyString .commandArgs (by decide)]
  rfl

theorem handleDowntimeData_ok (inside : StringsInside env .downtimeData body) :
    (handleDowntimeData headers naemon env body world).isOk = true := by
  rw [handleDowntimeData, inside.bodyString .hostName (by decide),
    inside.bodyString .serviceDescription (by decide), inside.bodyString .commentData (by decide)]
  rfl

theorem handleFlappingData_ok (inside : StringsInside env .flappingData body) :
    (handleFlappingData headers naemon env body world).isOk = true := by
  rw [handleFlappingData, inside.bodyString .hostName (by decide),
    inside.bodyString .serviceDescription (by decide)]
  rfl

end Inside

/-- `matching_comment` compares no `NULL`. -/
def Comparable (cmnt : StoredComment) (ds : CommentEvent) : Prop :=
  SameNumbers cmnt ds →
    ds.authorName ≠ none ∧
      (ds.authorName = some cmnt.author →
        ds.commentData ≠ none ∧
          (ds.commentData = some cmnt.commentData →
            ds.hostName ≠ none ∧
              (ds.hostName = some cmnt.hostName →
                (cmnt.serviceDescription = none ↔ ds.serviceDescription = none))))

variable {other : Option Bytes} {text : Bytes}

theorem sameDescription_isOk {left right : Option Bytes} :
    (sameDescription left right).isOk = true ↔ (left = none ↔ right = none) := by
  cases left with
  | none =>
    cases right with
    | none => simp [sameDescription, Except.isOk, Except.toBool]
    | some right =>
      simp [sameDescription, sameString, useString, bind, Except.bind, Except.isOk, Except.toBool]
  | some left =>
    cases right with
    | none =>
      simp [sameDescription, sameString, useString, bind, Except.bind, Except.isOk, Except.toBool]
    | some right =>
      simp [sameDescription, sameString, useString, bind, Except.bind, Except.isOk,
        Except.toBool, pure, Except.pure]

theorem compare_isOk {next : Except BadPointer Bool} : (do
      if (← sameString (some text) other) = false then
        return false
      next).isOk = true ↔ other ≠ none ∧ (other = some text → next.isOk = true) := by
  rw [sameString]
  cases other with
  | none => simp [useString, bind, Except.bind, Except.isOk, Except.toBool]
  | some other =>
    by_cases same : text = other
    · simp [useString, same, bind, Except.bind, pure, Except.pure]
    · have differs : ¬ other = text := fun h => same h.symm
      simp [useString, same, differs, bind, Except.bind, pure, Except.pure, Except.isOk,
        Except.toBool]

theorem matchingComment_isOk (cmnt : StoredComment) (ds : CommentEvent) :
    (matchingComment cmnt ds).isOk = true ↔ Comparable cmnt ds := by
  unfold matchingComment Comparable
  split_ifs with same
  · rw [compare_isOk, compare_isOk, compare_isOk, sameDescription_isOk]
    simp only [same, true_implies]
  · simp [same, Except.isOk, Except.toBool]

section Comments

variable {Rest : Type} {headers : NaemonHeaders} {naemon : Naemon Rest}

theorem deleteMatching_isOk (ds : CommentEvent) (comments : List StoredComment)
    (world : World Rest) :
    (deleteMatching naemon ds comments world).isOk = true ↔
      ∀ cmnt ∈ comments, Comparable cmnt ds := by
  induction comments generalizing world with
  | nil => simp [deleteMatching, Except.isOk, Except.toBool]
  | cons cmnt rest ih =>
    rw [deleteMatching, isOk_bind, forall_mem_cons, ← matchingComment_isOk]
    constructor
    · intro ⟨isMatching, compared, later⟩
      refine ⟨?_, (ih _).mp later⟩
      rw [compared]
      rfl
    · intro ⟨compared, later⟩
      cases matched : matchingComment cmnt ds with
      | error bad =>
        rw [matched] at compared
        cases compared
      | ok isMatching => exact ⟨isMatching, rfl, (ih _).mpr later⟩

def CommentTolerated (headers : NaemonHeaders) (world : World Rest) (ds : CommentEvent) : Prop :=
  ds.type = headers.nebtypeCommentDelete →
    ∀ object, world.find ds.objectName = some object →
      (ds.commentType = headers.hostComment ↔ ds.serviceDescription = none) ∧
        ∀ cmnt ∈ object.comments, Comparable cmnt ds

theorem deleteFrom_isOk (ds : CommentEvent) (found : Option MonitoredObject) (world : World Rest) :
    (do
      let object ← useObject found
      let world ← deleteMatching naemon ds object.comments world
      return ((0 : Int), world)).isOk = true ↔
      ∃ object, found = some object ∧ ∀ cmnt ∈ object.comments, Comparable cmnt ds := by
  cases found with
  | none => simp [useObject, bind, Except.bind, Except.isOk, Except.toBool]
  | some object =>
    rw [useObject, isOk_bind]
    simp only [Except.ok.injEq, Option.some_inj, exists_eq_left']
    rw [← deleteMatching_isOk ds object.comments world]
    cases deleteMatching naemon ds object.comments world with
    | error bad => simp [bind, Except.bind, Except.isOk, Except.toBool]
    | ok world => simp [bind, Except.bind, pure, Except.pure, Except.isOk, Except.toBool]

theorem handleComment_isOk (ds : CommentEvent) (world : World Rest) :
    (handleComment headers naemon ds world).isOk = true ↔ CommentTolerated headers world ds := by
  unfold handleComment CommentTolerated
  cases found : world.find ds.objectName with
  | none => simp [Except.isOk, Except.toBool]
  | some object =>
    dsimp only
    by_cases deletion : ds.type = headers.nebtypeCommentDelete
    · rw [if_pos deletion, deleteFrom_isOk]
      by_cases ofHost : ds.commentType = headers.hostComment <;>
        by_cases absent : ds.serviceDescription = none <;> simp [deletion, ofHost, absent]
    · rw [if_neg deletion]
      simp only [deletion, false_implies, iff_true]
      split
      · rfl
      · rfl

end Comments

section Events

variable {Rest : Type} {headers : NaemonHeaders} {naemon : Naemon Rest} {env : ReceiveEnv}
  {source pkt : Bytes} {world : World Rest}

def RuncmdTolerated (env : ReceiveEnv) (code : Nat) (body : Bytes) : Prop :=
  code = runcmdCmd → env.config.encrypted = true → env.config.expected.nodeType ≠ .poller →
    env.config.acceptRuncmd = true → loadString body env.base runcmdSlot ≠ some none

theorem runCommand_isOk (inside : (loadString body env.base runcmdSlot).isSome = true) :
    (runCommand naemon env body world).isOk = true ↔
      loadString body env.base runcmdSlot ≠ some none := by
  obtain ⟨text, loaded⟩ := Option.isSome_iff_exists.mp inside
  simp only [runCommand, stringAt_ok inside, loaded, Option.get_some]
  cases text with
  | none => simp [useString, bind, Except.bind, Except.isOk, Except.toBool]
  | some text => simp [useString, bind, Except.bind, pure, Except.pure, Except.isOk, Except.toBool]

theorem performOne_isOk (type : Nat) (effect : Effect) :
    ([effect].foldlM (performEffect headers naemon env type source) world).isOk =
      (performEffect headers naemon env type source world effect).isOk := by
  rw [foldlM_cons]
  cases performEffect headers naemon env type source world effect with
  | error bad | ok world => rfl

theorem handleRuncmdEvent_isOk (type code : Nat)
    (inside : (loadString body env.base runcmdSlot).isSome = true) :
    ((handleRuncmdEvent env.config code body).foldlM
      (performEffect headers naemon env type source) world).isOk = true ↔
      RuncmdTolerated env code body := by
  have nothing : (([] : List Effect).foldlM
      (performEffect headers naemon env type source) world).isOk = true := rfl
  unfold handleRuncmdEvent RuncmdTolerated
  by_cases isCommand : code = runcmdCmd
  · rw [if_pos isCommand]
    by_cases encrypted : env.config.encrypted = true
    · rw [if_neg (by rw [encrypted]; decide)]
      by_cases fromPoller : env.config.expected.nodeType = .poller
      · rw [if_pos (by rw [fromPoller]; decide)]
        exact iff_of_true nothing fun _ _ notPoller => absurd fromPoller notPoller
      · have allowed : ¬ (env.config.expected.nodeType ≠ .peer ∧
            env.config.expected.nodeType ≠ .master) := by
          cases kind : env.config.expected.nodeType with
          | poller => exact absurd kind fromPoller
          | peer => simp
          | master => simp
        rw [if_neg allowed]
        by_cases accepted : env.config.acceptRuncmd = true
        · rw [if_neg (by rw [accepted]; decide), performOne_isOk]
          simp only [isCommand, encrypted, fromPoller, accepted, ne_eq, not_false_eq_true,
            true_implies]
          exact runCommand_isOk inside
        · rw [if_pos (Bool.eq_false_iff.mpr accepted)]
          exact iff_of_true nothing fun _ _ _ isAccepted => absurd isAccepted accepted
    · rw [if_pos (Bool.eq_false_iff.mpr encrypted)]
      exact iff_of_true nothing fun _ isEncrypted => absurd isEncrypted encrypted
  · rw [if_neg isCommand]
    refine iff_of_true ?_ fun command => absurd command isCommand
    split
    · rw [performOne_isOk]
      change (runcmdCallback headers naemon env body world).isOk = true
      rw [runcmdCallback, stringAt_ok inside]
      rfl
    · exact nothing

theorem performEffects_passedOn (type : Nat) (rest : List Effect) :
    (passedOn env type ++ (if daemonWants type then [Effect.toDaemon] else []) ++ rest).foldlM
      (performEffect headers naemon env type source) world =
      rest.foldlM (performEffect headers naemon env type source) world := by
  have passes : ∀ effects : List Effect,
      (∀ effect ∈ effects, effect = .toMasters ∨ effect = .toPollers ∨ effect = .toDaemon) →
      effects.foldlM (performEffect headers naemon env type source) world = .ok world := by
    intro effects
    induction effects with
    | nil =>
      intro _
      rfl
    | cons effect effects ih =>
      intro all
      rw [forall_mem_cons] at all
      rw [foldlM_cons]
      rcases all.1 with rfl | rfl | rfl
      all_goals exact ih all.2
  rw [foldlM_append, passes]
  · rfl
  · intro effect member
    rw [mem_append] at member
    rcases member with member | member
    · unfold passedOn at member
      split at member
      · split at member
        · exact .inl (mem_singleton.mp member)
        · cases member
      · split at member
        · exact .inr (.inl (mem_singleton.mp member))
        · cases member
      · cases member
    · split at member
      · exact .inr (.inr (mem_singleton.mp member))
      · cases member

def Handler.struct : Handler → NebStruct
  | .hostResult => .merlinHostStatus
  | .serviceResult => .merlinServiceStatus
  | .notificationData => .notificationData
  | .externalCommand => .externalCommandData
  | .commentData => .commentData
  | .downtimeData => .downtimeData
  | .flappingData => .flappingData

def Handler.types : Handler → List Nat
  | .hostResult => [nebcallbackHostCheckData, nebcallbackHostStatusData]
  | .serviceResult => [nebcallbackServiceCheckData, nebcallbackServiceStatusData]
  | .notificationData => [nebcallbackNotificationData]
  | .externalCommand => [nebcallbackExternalCommandData]
  | .commentData => [nebcallbackCommentData]
  | .downtimeData => [nebcallbackDowntimeData]
  | .flappingData => [nebcallbackFlappingData]

variable {which : Handler} {type : Nat}

theorem mem_types_of_handlerFor (handled : handlerFor type = some which) : type ∈ which.types := by
  unfold handlerFor at handled
  split_ifs at handled with hostResult serviceResult notification command comment downtime flapping
  all_goals
    cases handled
    simpa [Handler.types]

theorem infoFor_handler (layout : Layout) (member : type ∈ which.types) :
    infoFor layout (type : Int) =
      some (hookInfoRow layout which.struct.stringFields.length which.struct) := by
  cases which
  all_goals
    simp only [Handler.types, mem_cons, not_mem_nil, or_false] at member
    rcases member with rfl | rfl
    all_goals rfl

theorem callHandler_isOk (type : Nat) (inside : StringsInside env which.struct body) :
    (callHandler headers naemon env type source body world which).isOk = true ↔
      (which = .commentData → ∀ ds, readComment headers env body = .ok ds →
        CommentTolerated headers world ds) := by
  cases which with
  | hostResult => exact iff_of_true (hostResultHandler_ok inside) nofun
  | serviceResult => exact iff_of_true (serviceResultHandler_ok inside) nofun
  | notificationData => exact iff_of_true (handleNotificationData_ok inside) nofun
  | externalCommand => exact iff_of_true (handleExternalCommand_ok inside) nofun
  | downtimeData => exact iff_of_true (handleDowntimeData_ok inside) nofun
  | flappingData => exact iff_of_true (handleFlappingData_ok inside) nofun
  | commentData =>
    obtain ⟨ds, read⟩ := StringsInside.readComment inside headers
    show (handleCommentData headers naemon env body world).isOk = true ↔ _
    unfold handleCommentData
    rw [read, isOk_bind]
    simp only [Except.ok.injEq, exists_eq_left', forall_eq', true_implies]
    exact handleComment_isOk ds world

/-- The cases in which `NULL` strings do no harm. -/
structure EventTolerated (headers : NaemonHeaders) (env : ReceiveEnv) (world : World Rest)
    (pkt body : Bytes) : Prop where
  comment : hdrType pkt = nebcallbackCommentData →
    ∀ ds, readComment headers env body = .ok ds → CommentTolerated headers world ds
  runcmd : (hdrType pkt : Int) = runcmdPacket → RuncmdTolerated env (hdrCode pkt) body

theorem handlerFor_comment :
    handlerFor type = some .commentData ↔ type = nebcallbackCommentData := by
  constructor
  · intro handled
    exact mem_singleton.mp (mem_types_of_handlerFor handled)
  · rintro rfl
    rfl

theorem performHandler_isOk (type : Nat) (which : Handler) :
    (performEffect headers naemon env type source world (.handler which body)).isOk =
      (callHandler headers naemon env type source body world which).isOk := by
  show (callHandler headers naemon env type source body world which >>=
    fun handled => pure handled.2).isOk = _
  cases callHandler headers naemon env type source body world which with
  | error bad | ok handled => rfl

theorem handleCallback_isOk
    (decoded : merlinDecode env.layout (some (pktBody pkt)) env.base (hdrLen pkt) (hdrType pkt) =
      some (0, body))
    (inside : ∀ info, infoFor env.layout (hdrType pkt) = some info →
      ∀ slot ∈ info.slots, (loadString body env.base slot).isSome = true) :
    ((handleCallback env pkt).foldlM
      (performEffect headers naemon env (hdrType pkt) source) world).isOk = true ↔
      (hdrType pkt = nebcallbackCommentData →
        ∀ ds, readComment headers env body = .ok ds → CommentTolerated headers world ds) := by
  unfold handleCallback
  dsimp only
  rw [performEffects_passedOn]
  split
  · rename_i skipped
    refine iff_of_true rfl ?_
    intro isComment
    rw [isComment] at skipped
    exact absurd skipped (by decide)
  · unfold withDecoded
    rw [decoded]
    dsimp only
    rw [if_pos rfl, ← handlerFor_comment]
    cases handled : handlerFor (hdrType pkt) with
    | none => exact iff_of_true rfl nofun
    | some which =>
      rw [Option.elim_some, performOne_isOk, performHandler_isOk, Option.some_inj]
      refine callHandler_isOk (hdrType pkt) fun field member => ?_
      apply inside _ (infoFor_handler env.layout (mem_types_of_handlerFor handled))
      rw [hookInfoRow_slots env.layout rfl]
      exact mem_map_of_mem member

/-- A connected node's event whose strings are `NULL` or inside of the packet is
handled without a bad pointer exactly when it is tolerated. -/
theorem handleEvent_null_safe_iff (headers : NaemonHeaders) (naemon : Naemon Rest)
    (env : ReceiveEnv) (node : RecvNode) (source pkt body : Bytes) (world : World Rest)
    (connected : node.state = .connected)
    (decoded : merlinDecode env.layout (some (pktBody pkt)) env.base (hdrLen pkt) (hdrType pkt) =
      some (0, body))
    (inside : ∀ info, infoFor env.layout (hdrType pkt) = some info →
      ∀ slot ∈ info.slots, (loadString body env.base slot).isSome = true) :
    (performEvent headers naemon env node source pkt world).isOk = true ↔
      EventTolerated headers env world pkt body := by
  unfold performEvent handleEvent
  by_cases isControl : hdrType pkt = ctrlPacket
  · rw [isControl] at decoded
    have undecodable : infoFor env.layout (ctrlPacket : Nat) = none := rfl
    unfold merlinDecode at decoded
    rw [undecodable] at decoded
    cases decoded
  · rw [if_neg isControl]
    by_cases isRuncmd : (hdrType pkt : Int) = runcmdPacket
    · rw [if_pos isRuncmd]
      have isInside : (loadString body env.base runcmdSlot).isSome = true :=
        inside runcmdInfo (by rw [isRuncmd]; rfl) runcmdSlot (by decide)
      unfold withDecoded
      rw [decoded]
      dsimp only
      rw [if_pos rfl, handleRuncmdEvent_isOk _ _ isInside]
      constructor
      · intro tolerated
        refine ⟨?_, fun _ => tolerated⟩
        intro isComment
        rw [isComment] at isRuncmd
        exact absurd isRuncmd (by decide)
      · intro tolerated
        exact tolerated.runcmd isRuncmd
    · rw [if_neg isRuncmd, if_neg (by rw [connected]; decide), handleCallback_isOk decoded inside]
      exact ⟨fun tolerated => ⟨tolerated, fun runcmd => absurd runcmd isRuncmd⟩,
        fun tolerated => tolerated.comment⟩

end Events

def sampleHeaders : NaemonHeaders where
  readInt field body :=
    match field with
    | .type => leValue (slice body 0 4)
    | .commentType => leValue (slice body 4 4)
    | _ => 0
  hostNotification := 0
  cmdRestartProcess := 13
  cmdShutdownProcess := 14
  cmdDelHostComment := 2
  cmdDelSvcComment := 4
  hostComment := 1
  serviceComment := 2
  acknowledgementComment := 4
  downtimeComment := 2
  nebtypeCommentDelete := 902
  nebtypeDowntimeDelete := 1102
  nebtypeDowntimeStop := 1104
  nebtypeFlappingStart := 1000
  serviceFlapping := 1

def idleNaemon : Naemon Unit where
  processCheckResult _ world := (0, world)
  processExternalCommand2 _ _ _ world := world
  addNewComment _ world := world
  deleteComment _ _ world := world
  deleteDowntime _ _ _ _ world := world
  addNotifiedOn on _ := on
  wprocRunCallback _ world := world
  nsockPrintfNul _ _ world := world

def sampleWorld : World Unit where
  host _ := none
  service _ _ :=
    some ⟨⟨fun _ => 0, none, none, none⟩, 0, 0,
      [⟨1, 2, 0, 0, 0, 0, 0, 0, [97], [98], [104], some [115]⟩]⟩
  rest := ()

def eventHeader (type code len : Nat) : Bytes :=
  merlinSignature ++ leBytes 2 merlinProtocolVersion ++ leBytes 2 type ++ leBytes 2 code ++
    [0, 0] ++ leBytes 4 len ++ List.replicate 56 0 ++ sampleFrom ++ List.replicate 16 0

def deletedComment (commentType author : Nat) : Bytes :=
  eventHeader nebcallbackCommentData 0 262 ++ leBytes 4 902 ++ leBytes 4 commentType ++
    List.replicate 24 0 ++ leBytes 8 256 ++ leBytes 8 258 ++ List.replicate 48 0 ++
    leBytes 8 author ++ List.replicate 152 0 ++ [104, 0, 115, 0, 99, 0]

def emptyRuncmd : Bytes := eventHeader 0xfffc runcmdCmd 12 ++ List.replicate 12 0

def decodedBody (pkt : Bytes) : Bytes :=
  ((merlinDecode sampleLayout (some (pktBody pkt)) 4096 (hdrLen pkt) (hdrType pkt)).map
    Prod.snd).getD []

theorem strings_inside_of_all {env : ReceiveEnv} {type : Int}
    (all : (infoFor env.layout type).all (fun info =>
      info.slots.all fun slot => (loadString body env.base slot).isSome) = true) :
    ∀ info, infoFor env.layout type = some info →
      ∀ slot ∈ info.slots, (loadString body env.base slot).isSome = true := by
  intro info found
  rw [found, Option.all_some, all_eq_true] at all
  exact all

theorem readComment_deleted :
    readComment sampleHeaders sampleEnv (decodedBody (deletedComment 2 260)) =
      .ok ⟨902, 2, 0, 0, 0, 0, 0, 0, some [104], some [115], some [99], none⟩ := by
  decide +kernel

theorem handleEvent_null_safe_deleted :
    (performEvent sampleHeaders idleNaemon sampleEnv connectedPeer sampleFrom (deletedComment 2 260)
      sampleWorld).isOk = true := by
  refine (handleEvent_null_safe_iff sampleHeaders idleNaemon sampleEnv connectedPeer sampleFrom
    (deletedComment 2 260) (decodedBody (deletedComment 2 260)) sampleWorld rfl
    (by decide +kernel) (strings_inside_of_all (by decide +kernel))).mpr ⟨?_, ?_⟩
  · intro _ ds read
    rw [readComment_deleted] at read
    cases read
    intro _ object found
    cases found
    exact ⟨by decide, by simp [Comparable]⟩
  · intro isRuncmd
    exact absurd isRuncmd (by decide +kernel)

def MisusesNull (pkt : Bytes) : Prop :=
  merlinDecode sampleEnv.layout (some (pktBody pkt)) sampleEnv.base (hdrLen pkt) (hdrType pkt) =
      some (0, decodedBody pkt) ∧
    (∀ info, infoFor sampleEnv.layout (hdrType pkt) = some info →
      ∀ slot ∈ info.slots, (loadString (decodedBody pkt) sampleEnv.base slot).isSome = true) ∧
    (performEvent sampleHeaders idleNaemon sampleEnv connectedPeer sampleFrom pkt
      sampleWorld).isOk = false

theorem handleEvent_not_null_safe :
    MisusesNull (deletedComment 1 260) ∧ MisusesNull (deletedComment 2 0) ∧
      MisusesNull emptyRuncmd := by
  refine ⟨?_, ?_, ?_⟩
  all_goals
    exact ⟨by decide +kernel, strings_inside_of_all (by decide +kernel), by decide +kernel⟩

end MonitorMerlin
