import Mathlib.Data.List.Infix
import Microcosm.Lib.Model.Basic

/-!
# The p2p topics of the master-worker framework

The five topic constructors, from `lib/model/messages.go`, `lib/statusutil/message.go` and
`pkg/dm/topic.go`. Each is an `fmt.Sprintf` of a literal prefix and its arguments joined by
'-', with no escaping.

The topics are jointly injective on the identifiers the framework uses (`topic_injective`):
master IDs are the canonical strings of `uuid.Generator.NewString` or
`metadata.JobManagerUUID`, worker IDs are canonical UUID strings, and task IDs are
arbitrary. Two facts about the shapes carry it: a master ID is read off the front of a
topic body, because a UUID has 36 characters and the job manager's ID differs from every
UUID at its third character, which is not a hex digit; and the one pair of prefixes where
one extends the other, `worker-status-` and `worker-status-change-req-`, would need a master
ID that starts with `change-req-`. For arbitrary strings the constructors do collide
(`workerStatusTopic_collides`).
-/

namespace Microcosm

namespace Lib

/-- `p2p.Topic`. -/
abbrev Topic := String

/-- `model.HeartbeatPingTopic`. -/
def heartbeatPingTopic (masterID : MasterID) : Topic :=
  "heartbeat-ping-" ++ masterID

/-- `model.HeartbeatPongTopic`. -/
def heartbeatPongTopic (masterID : MasterID) (workerID : WorkerID) : Topic :=
  "heartbeat-pong-" ++ masterID ++ "-" ++ workerID

/-- `model.WorkerStatusChangeRequestTopic`. -/
def workerStatusChangeRequestTopic (masterID : MasterID) (workerID : WorkerID) : Topic :=
  "worker-status-change-req-" ++ masterID ++ "-" ++ workerID

/-- `statusutil.WorkerStatusTopic`. -/
def workerStatusTopic (masterID : MasterID) : Topic :=
  "worker-status-" ++ masterID

/-- `dm.OperateTaskMessageTopic`. -/
def operateTaskMessageTopic (masterID : MasterID) (taskID : String) : Topic :=
  "operate-task-message-" ++ masterID ++ "-" ++ taskID

/-- `metadata.JobManagerUUID`, the master ID of the job manager. -/
def jobManagerUUID : MasterID := "dataflow-engine-job-manager"

/-! ## Canonical UUID strings -/

/-- A digit of the lowercase hex that `uuid.UUID.String` writes. -/
def isLowerHexDigit (c : Char) : Bool :=
  ('0' ≤ c && c ≤ '9') || ('a' ≤ c && c ≤ 'f')

/-- The layout of `uuid.UUID.String`: `true` for a hex digit, `false` for a '-', in groups
of 8, 4, 4, 4 and 12 digits. -/
def uuidLayout : List Bool :=
  List.replicate 8 true ++ false :: List.replicate 4 true ++ false :: List.replicate 4 true ++
    false :: List.replicate 4 true ++ false :: List.replicate 12 true

/-- The characters follow a layout. -/
def fitsLayout : List Bool → List Char → Bool
  | [], [] => true
  | true :: layout, c :: cs => isLowerHexDigit c && fitsLayout layout cs
  | false :: layout, c :: cs => c == '-' && fitsLayout layout cs
  | _, _ => false

-- Many proofs below unfold this definition, and Lean elaborates them in parallel: the empty
-- section generates its equation lemmas here, once, so that the proofs do not all wait on it.
-- The simp set outside the section is unchanged.
section
attribute [local simp] fitsLayout
end

/-- A string `uuid.Generator.NewString` can return. -/
def isUUIDString (s : String) : Bool :=
  fitsLayout uuidLayout s.toList

/-- The master IDs of the framework: UUIDs of `NewString`, and the job manager's ID. -/
def IsMasterID (masterID : MasterID) : Prop :=
  isUUIDString masterID = true ∨ masterID = jobManagerUUID

instance (masterID : MasterID) : Decidable (IsMasterID masterID) :=
  inferInstanceAs (Decidable (_ ∨ _))

theorem fitsLayout_length : ∀ {layout : List Bool} {cs : List Char},
    fitsLayout layout cs = true → cs.length = layout.length
  | [], [], _ => rfl
  | true :: layout, c :: cs, h => by
      simp only [fitsLayout, Bool.and_eq_true] at h
      simp [fitsLayout_length h.2]
  | false :: layout, c :: cs, h => by
      simp only [fitsLayout, Bool.and_eq_true] at h
      simp [fitsLayout_length h.2]

/-- A digit position of the layout holds a hex digit. -/
theorem fitsLayout_digit : ∀ {layout : List Bool} {cs : List Char} {i : Nat} {c : Char},
    fitsLayout layout cs = true → layout[i]? = some true → cs[i]? = some c →
      isLowerHexDigit c = true
  | true :: layout, c' :: cs, 0, c, h, _, hc => by
      simp only [fitsLayout, Bool.and_eq_true] at h
      simp only [List.getElem?_cons_zero, Option.some.injEq] at hc
      exact hc ▸ h.1
  | b :: layout, c' :: cs, i + 1, c, h, hl, hc => by
      have hrest : fitsLayout layout cs = true := by
        cases b <;> simp only [fitsLayout, Bool.and_eq_true] at h <;> exact h.2
      exact fitsLayout_digit hrest (by simpa using hl) (by simpa using hc)

theorem isUUIDString_length {s : String} (h : isUUIDString s = true) : s.toList.length = 36 :=
  fitsLayout_length h

/-- The first eight characters of a UUID are hex digits. -/
theorem isUUIDString_digit {s : String} (h : isUUIDString s = true) {i : Nat} (hi : i < 8)
    {c : Char} (hc : s.toList[i]? = some c) : isLowerHexDigit c = true :=
  have hlayout : ∀ i < 8, uuidLayout[i]? = some true := by decide
  fitsLayout_digit h (hlayout i hi) hc

/-! ## Reading a master ID off the front of a topic body -/

/-- Two strings that agree on a character below the length of both. -/
theorem getElem?_eq_of_append_eq {l₁ l₂ r₁ r₂ : List Char} (h : l₁ ++ r₁ = l₂ ++ r₂) {i : Nat}
    (h₁ : i < l₁.length) (h₂ : i < l₂.length) : l₁[i]? = l₂[i]? := by
  have := congrArg (·[i]?) h
  simpa [List.getElem?_append_left h₁, List.getElem?_append_left h₂] using this

/-- A UUID is not the job manager's ID, nor a prefix of a topic body that starts with it:
their third characters differ. -/
theorem uuid_append_ne_jobManager {m : MasterID} (hm : isUUIDString m = true)
    (r₁ r₂ : List Char) : m.toList ++ r₁ ≠ jobManagerUUID.toList ++ r₂ := by
  intro h
  have hlen := isUUIDString_length hm
  have h2 := getElem?_eq_of_append_eq h (i := 2) (by omega) (by decide)
  have hj : jobManagerUUID.toList[2]? = some 't' := by decide
  rw [hj] at h2
  exact absurd (isUUIDString_digit hm (by decide) h2) (by decide)

/-- The master ID and the rest of a body `masterID-rest` are determined by the body. -/
theorem IsMasterID.append_inj {m₁ m₂ : MasterID} (h₁ : IsMasterID m₁) (h₂ : IsMasterID m₂)
    {r₁ r₂ : List Char} (h : m₁.toList ++ '-' :: r₁ = m₂.toList ++ '-' :: r₂) :
    m₁ = m₂ ∧ r₁ = r₂ := by
  rcases h₁ with h₁ | rfl <;> rcases h₂ with h₂ | rfl
  · -- two UUIDs have the same length
    have hlen : m₁.toList.length = m₂.toList.length := by
      rw [isUUIDString_length h₁, isUUIDString_length h₂]
    obtain ⟨hm, hr⟩ := List.append_inj h hlen
    exact ⟨String.toList_inj.1 hm, (List.cons.inj hr).2⟩
  · exact absurd h (uuid_append_ne_jobManager h₁ _ _)
  · exact absurd h.symm (uuid_append_ne_jobManager h₂ _ _)
  · exact ⟨rfl, (List.cons.inj (List.append_cancel_left h)).2⟩

/-- No master ID starts with `change-req-`: its second character would be 'h', which is no
hex digit and not the job manager's 'a'. -/
theorem IsMasterID.ne_changeReq {m : MasterID} (hm : IsMasterID m) (r : List Char) :
    m.toList ≠ "change-req-".toList ++ r := by
  intro h
  have h1 : m.toList[1]? = some 'h' := by
    rw [h]
    rfl
  rcases hm with hm | rfl
  · exact absurd (isUUIDString_digit hm (by decide) h1) (by decide)
  · exact absurd h1 (by decide)

/-! ## Joint injectivity -/

/-- A call of one of the topic constructors. -/
inductive TopicCall
  | heartbeatPing (masterID : MasterID)
  | heartbeatPong (masterID : MasterID) (workerID : WorkerID)
  | workerStatusChangeRequest (masterID : MasterID) (workerID : WorkerID)
  | workerStatus (masterID : MasterID)
  | operateTaskMessage (masterID : MasterID) (taskID : String)
  deriving DecidableEq, Repr

namespace TopicCall

/-- The topic the call returns. -/
def topic : TopicCall → Topic
  | .heartbeatPing masterID => heartbeatPingTopic masterID
  | .heartbeatPong masterID workerID => heartbeatPongTopic masterID workerID
  | .workerStatusChangeRequest masterID workerID =>
      workerStatusChangeRequestTopic masterID workerID
  | .workerStatus masterID => workerStatusTopic masterID
  | .operateTaskMessage masterID taskID => operateTaskMessageTopic masterID taskID

/-- The arguments are identifiers of the framework: master IDs of `IsMasterID`, worker IDs
of `NewString`, any task ID. -/
def Valid : TopicCall → Prop
  | .heartbeatPing masterID => IsMasterID masterID
  | .heartbeatPong masterID workerID => IsMasterID masterID ∧ isUUIDString workerID = true
  | .workerStatusChangeRequest masterID workerID =>
      IsMasterID masterID ∧ isUUIDString workerID = true
  | .workerStatus masterID => IsMasterID masterID
  | .operateTaskMessage masterID _ => IsMasterID masterID

instance (a : TopicCall) : Decidable a.Valid :=
  match a with
  | .heartbeatPing masterID => inferInstanceAs (Decidable (IsMasterID masterID))
  | .heartbeatPong masterID workerID =>
      inferInstanceAs (Decidable (IsMasterID masterID ∧ isUUIDString workerID = true))
  | .workerStatusChangeRequest masterID workerID =>
      inferInstanceAs (Decidable (IsMasterID masterID ∧ isUUIDString workerID = true))
  | .workerStatus masterID => inferInstanceAs (Decidable (IsMasterID masterID))
  | .operateTaskMessage masterID _ => inferInstanceAs (Decidable (IsMasterID masterID))

/-- The literal that starts the topic. -/
def literal : TopicCall → String
  | .heartbeatPing _ => "heartbeat-ping-"
  | .heartbeatPong _ _ => "heartbeat-pong-"
  | .workerStatusChangeRequest _ _ => "worker-status-change-req-"
  | .workerStatus _ => "worker-status-"
  | .operateTaskMessage _ _ => "operate-task-message-"

section
attribute [local simp] literal
end

/-- What follows the literal: the master ID, then for two of the constructors a '-' and the
second argument. -/
def body : TopicCall → List Char
  | .heartbeatPing masterID | .workerStatus masterID => masterID.toList
  | .heartbeatPong masterID workerID | .workerStatusChangeRequest masterID workerID =>
      masterID.toList ++ '-' :: workerID.toList
  | .operateTaskMessage masterID taskID => masterID.toList ++ '-' :: taskID.toList

theorem topic_toList (a : TopicCall) : a.topic.toList = a.literal.toList ++ a.body := by
  have hdash : "-".toList = ['-'] := by decide
  cases a <;> dsimp only [topic, literal, body, heartbeatPingTopic, heartbeatPongTopic,
    workerStatusChangeRequestTopic, workerStatusTopic, operateTaskMessageTopic] <;>
    simp only [String.toList_append, hdash, List.append_assoc, List.singleton_append]

/-- Two constructors whose literals are equal are the same constructor, and then the bodies
are equal. -/
theorem body_eq_of_literal_eq {a b : TopicCall} (h : a.topic = b.topic)
    (hp : a.literal = b.literal) : a.body = b.body := by
  have := congrArg String.toList h
  rw [topic_toList, topic_toList, hp] at this
  exact List.append_cancel_left this

/-- A call is determined by its constructor and its body. -/
theorem eq_of_body_eq {a b : TopicCall} (ha : a.Valid) (hb : b.Valid)
    (hp : a.literal = b.literal) (hbody : a.body = b.body) : a = b := by
  cases a <;> cases b <;> simp only [literal, body] at hp hbody <;>
    first
    | exact absurd hp (by decide)
    | skip
  · rw [String.toList_inj.1 hbody]
  · obtain ⟨hm, hw⟩ := IsMasterID.append_inj ha.1 hb.1 hbody
    rw [hm, String.toList_inj.1 hw]
  · obtain ⟨hm, hw⟩ := IsMasterID.append_inj ha.1 hb.1 hbody
    rw [hm, String.toList_inj.1 hw]
  · rw [String.toList_inj.1 hbody]
  · obtain ⟨hm, ht⟩ := IsMasterID.append_inj ha hb hbody
    rw [hm, String.toList_inj.1 ht]

/-- Two literals one of which extends the other are equal, or are `worker-status-` and
`worker-status-change-req-`. -/
theorem literal_related (a b : TopicCall) (h : a.literal.toList <+: b.literal.toList) :
    a.literal = b.literal ∨
      (a.literal = "worker-status-" ∧ b.literal = "worker-status-change-req-") := by
  cases a <;> cases b <;> simp only [literal] at h <;>
    first
    | exact .inl rfl
    | exact .inr ⟨rfl, rfl⟩
    | exact absurd h (by decide)

/-- A status topic is no status-change-request topic. -/
theorem workerStatus_ne_changeRequest {a b : TopicCall} (ha : a.Valid)
    (hpa : a.literal = "worker-status-") (hpb : b.literal = "worker-status-change-req-")
    (h : a.topic = b.topic) : False := by
  cases a <;> simp only [literal] at hpa <;> try exact absurd hpa (by decide)
  rename_i masterID
  have heq := congrArg String.toList h
  rw [topic_toList, topic_toList, hpb] at heq
  simp only [literal, body] at heq
  -- cancel the common literal: the master ID would start with `change-req-`
  have hsplit : "worker-status-change-req-".toList =
      "worker-status-".toList ++ "change-req-".toList := by decide
  rw [hsplit, List.append_assoc] at heq
  exact ha.ne_changeReq _ (List.append_cancel_left heq)

/-- The topic constructors are jointly injective on the identifiers of the framework. -/
theorem topic_injective {a b : TopicCall} (ha : a.Valid) (hb : b.Valid)
    (h : a.topic = b.topic) : a = b := by
  have hlist := congrArg String.toList h
  rw [topic_toList, topic_toList] at hlist
  -- of two literals that start the same string, one extends the other
  rcases List.prefix_or_prefix_of_prefix (List.prefix_append _ _) (hlist ▸ List.prefix_append _ _)
    with hba | hab
  · rcases literal_related b a hba with hp | ⟨hpb, hpa⟩
    · exact eq_of_body_eq ha hb hp.symm (body_eq_of_literal_eq h hp.symm)
    · exact (workerStatus_ne_changeRequest hb hpb hpa h.symm).elim
  · rcases literal_related a b hab with hp | ⟨hpa, hpb⟩
    · exact eq_of_body_eq ha hb hp (body_eq_of_literal_eq h hp)
    · exact (workerStatus_ne_changeRequest ha hpa hpb h).elim

theorem topic_injective_jobManager_pong :
    heartbeatPong jobManagerUUID ("0f8fad5b-d9cb-469f-a165-70867728950e") =
      heartbeatPong jobManagerUUID ("0f8fad5b-d9cb-469f-a165-70867728950e") :=
  topic_injective (by decide) (by decide) rfl

end TopicCall

/-- Without the shapes of the IDs the constructors collide: a status topic is the
status-change-request topic of another master. -/
theorem workerStatusTopic_collides (masterID : MasterID) (workerID : WorkerID) :
    workerStatusTopic ("change-req-" ++ masterID ++ "-" ++ workerID) =
      workerStatusChangeRequestTopic masterID workerID := by
  apply String.toList_inj.1
  have hsplit : "worker-status-change-req-".toList =
      "worker-status-".toList ++ "change-req-".toList := by decide
  dsimp only [workerStatusTopic, workerStatusChangeRequestTopic]
  simp only [String.toList_append, hsplit, List.append_assoc]

end Lib

end Microcosm
