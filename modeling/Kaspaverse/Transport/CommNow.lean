import Mathlib
import Kaspaverse.Transport.Pending
import Kaspaverse.Transport.SideFiles

namespace Kaspaverse.Transport

inductive SignableKind
  | payment
  | bond
  | bondRefund
  | selfSendFrame
  | stake
  | bcast
  | sweep
  | consolidate
deriving DecidableEq

def kindOfIntent : TransportIntent → SignableKind
  | .bcast => .bcast
  | .handshake _ _ _ => .bond
  | .accept _ _ _ _ _ => .bondRefund
  | .comm _ _ _ _ _ _ | .selfStash _ _ => .selfSendFrame

namespace CommNow

variable {Script Prefix Address : Type}

structure Output (Script : Type) where
  value : ℕ
  script : Script

/-- One built transaction of a send: what its inputs hold and its outputs. -/
structure Leg (Script : Type) where
  inputs : ℕ
  outputs : List (Output Script)

def Leg.fee (leg : Leg Script) : ℕ := leg.inputs - (leg.outputs.map Output.value).sum

/-- What the summary says of a send. -/
structure SendSummary where
  destination : String
  feeSompi : ℕ

/-- A built and unsigned send. Its fee is the Generator's, over every leg. -/
structure PreparedSend (Script : Type) where
  pending : List (Leg Script)
  summary : SendSummary
  aggregate : summary.feeSompi = (pending.map Leg.fee).sum

structure SignableSummary where
  nonce : ℕ
  kind : SignableKind
  destination : String
  feeSompi : ℕ

def projectSignable (nonce : ℕ) (kind : SignableKind) (summary : SendSummary) : SignableSummary :=
  ⟨nonce, kind, summary.destination, summary.feeSompi⟩

/-- The pinned library's addresses, and the vault's answer for a key slot. -/
structure Addresses (Script Prefix Address : Type) where
  extract : Script → Prefix → Except String Address
  prefixOf : Address → Prefix
  print : Address → String
  walletAddressAt : KeyBranch × ℕ → Except String Address

section Gate

variable (addresses : Addresses Script Prefix Address) [DecidableEq Address]

/-- Every output of every leg decodes to the address. -/
def PreparedSend.paysOnly (prepared : PreparedSend Script) (owned : Address) : Bool :=
  prepared.pending.all fun leg => leg.outputs.all fun output =>
    match addresses.extract output.script (addresses.prefixOf owned) with
    | .ok decoded => decide (decoded = owned)
    | .error _ => false

def UNCEREMONIOUS_FEE_CEILING : ℕ := 5000000

def UNCEREMONIOUS_OFF : String := "message signing is on — confirm this send on the sheet"

def UNCEREMONIOUS_NEEDS_CONFIRMING : String := "this send needs confirming"

inductive RefusalKind
  | preference
  | kind
  | destination
  | fee
deriving DecidableEq

structure Refusal where
  why : String
  said : String
  kind : RefusalKind

def unceremoniousRefusal (summary : SignableSummary) (expected : String) (signMessages : Bool) :
    Option Refusal :=
  if signMessages then some ⟨"the preference still says confirm", UNCEREMONIOUS_OFF, .preference⟩
  else if summary.kind ≠ .selfSendFrame then
    some ⟨"the built transaction is not a self-send frame", UNCEREMONIOUS_NEEDS_CONFIRMING, .kind⟩
  else if summary.destination ≠ expected then
    some ⟨"the built transaction pays an address that is not this conversation's own",
      UNCEREMONIOUS_NEEDS_CONFIRMING, .destination⟩
  else if UNCEREMONIOUS_FEE_CEILING < summary.feeSompi then
    some ⟨"the fee is above the unceremonious ceiling", UNCEREMONIOUS_NEEDS_CONFIRMING, .fee⟩
  else none

/-- Whole coins, a dot and eight digits. -/
def formatKas (sompi : ℕ) : String :=
  let digits := toString (sompi % 100000000)
  toString (sompi / 100000000) ++ "." ++ String.ofList (List.replicate (8 - digits.length) '0') ++ digits

def Refusal.text (refusal : Refusal) (feeSompi : ℕ) : String :=
  match refusal.kind with
  | .fee => "this message costs " ++ formatKas feeSompi ++
      " KAS — more than messages usually do, so it needs confirming"
  | _ => refusal.said

end Gate

def commSendable (status : ConversationStatus) (initiatedByMe : Bool) (contactAddress myAlias : String) : Bool :=
  let stateAllows := match status with
    | .active => true
    | .pendingOutbound => initiatedByMe
    | .pendingInbound => false
  stateAllows && !contactAddress.isEmpty && !myAlias.isEmpty

def notSendable : ConversationStatus → String
  | .pendingInbound => "accept this invitation first — that is where their bond is refunded"
  | _ => "this conversation isn't ready to send yet"

/-- What `plan_comm` keeps of the conversation: the address to build on, our alias and the slot. -/
structure CommPlan (Address : Type) where
  ownAddress : Address
  myAlias : String
  bound : KeyBranch × ℕ

section Reads

variable (addresses : Addresses Script Prefix Address)

def conversationAt (store : Option TransportStore) (conversationId : String) : Except String ConversationRecord :=
  match store with
  | none => .error "messaging is still starting — try again in a moment"
  | some store =>
    match store.conversations.records.lookup conversationId with
    | none => .error "conversation not found"
    | some conversation => .ok conversation

/-- The address the conversation is bound to. -/
def boundAddress (store : Option TransportStore) (conversationId : String) : Except String Address :=
  (conversationAt store conversationId).bind fun conversation =>
    addresses.walletAddressAt (conversation.boundBranch, conversation.boundIndex)

def planComm (store : Option TransportStore) (conversationId : String) : Except String (CommPlan Address) :=
  (conversationAt store conversationId).bind fun conversation =>
    if commSendable conversation.status conversation.initiatedByMe conversation.contactAddress
        conversation.myAlias then
      let bound := (conversation.boundBranch, conversation.boundIndex)
      (addresses.walletAddressAt bound).map fun own => ⟨own, conversation.myAlias, bound⟩
    else .error (notSendable conversation.status)

end Reads

/-- How far a `transport_send_comm_now` is. -/
inductive Stage (Address : Type)
  /-- the preference was read -/
  | asked
  /-- the bound address was read -/
  | bound
  | planned (plan : CommPlan Address)
  /-- the plan is built, and its prepare is stashing it -/
  | preparing (summary : SignableSummary)
  | prepared (summary : SignableSummary)
  | confined (summary : SignableSummary)
  | committing (summary : SignableSummary) (commit : ℕ)
  /-- a refusal clears the plan's stash, then the intent's -/
  | abandoning (nonce : ℕ) (said : String)
  | clearing (nonce : ℕ) (said : String)
  | refused (nonce : Option ℕ) (said : String)
  | returned (summary : SignableSummary) (outcome : SendOutcome)

/-- One call, with the preference and the address it read. -/
structure Call (Address : Type) where
  conversationId : String
  signMessages : Bool
  expected : Option Address
  stage : Stage Address

/-- The stashes with every other call on them, the preference and the calls of this door. `sent`, which
    nothing reads, is what each call broadcast. -/
structure Door (Script Address : Type) where
  pending : Pending (PreparedSend Script)
  signMessages : Bool
  calls : KeyMap ℕ (Call Address)
  sent : List (ℕ × Broadcast (PreparedSend Script))

inductive Event (Script : Type)
  /-- a step of another call, or of the hub -/
  | other (event : Pending.Event (PreparedSend Script))
  | preference (signMessages : Bool)
  | call (i : ℕ) (conversationId text : String)
  | bind (i : ℕ)
  | plan (i : ℕ)
  /-- the vault, the engine or the build refuses before anything is stashed -/
  | fail (i : ℕ) (said : String)
  | build (i : ℕ) (prepared : PreparedSend Script) (reseal : List UInt8) (timestampMs : ℕ) (wire : WireNamespace)
  | stashIntent (i : ℕ)
  | stashPlan (i : ℕ)
  | confine (i : ℕ)
  | judge (i commit : ℕ)
  | abandonPlan (i : ℕ)
  | abandonIntent (i : ℕ)
  | advance (i : ℕ) (outcome : SendOutcome)

namespace Door

/-- The nonce the call is stashing, and the commit it runs: no other call's step moves these. -/
def storing : Stage Address → Option ℕ
  | .preparing summary => some summary.nonce
  | _ => none

def running : Stage Address → Option ℕ
  | .committing _ commit => some commit
  | _ => none

def owns (s : Door Script Address) : Pending.Event (PreparedSend Script) → Bool
  | .storeIntent nonce | .storePlan nonce => s.calls.values.any fun call => storing call.stage == some nonce
  | .commit id _ | .check id | .refuse id | .takePlan id | .takeIntent id | .broadcast id _ =>
    s.calls.values.any fun call => running call.stage == some id
  | _ => false

/-- A call moves, and the stashes with it. -/
def move (s : Door Script Address) (i : ℕ) (call : Call Address) (stage : Stage Address)
    (pending : Pending (PreparedSend Script)) : Door Script Address :=
  { s with pending := pending, calls := s.calls.insert i { call with stage := stage } }

variable (addresses : Addresses Script Prefix Address) [DecidableEq Address]

/-- One critical section of the commit a call runs. -/
def advance (s : Door Script Address) (i : ℕ) (call : Call Address) (summary : SignableSummary) (commit : ℕ)
    (outcome : SendOutcome) : Option (Door Script Address) :=
  match s.pending.commits.lookup commit with
  | none => none
  | some (.checking _ _) => (s.pending.step (.check commit)).map fun next => s.move i call call.stage next
  | some (.refusing _) =>
    (s.pending.step (.refuse commit)).map fun next =>
      s.move i call (.clearing summary.nonce
        ("this request was folded into a conversation you already have while you were confirming — " ++
          "nothing was sent. Open the conversation and send.")) next
  | some (.ready nonce _ _) =>
    (s.pending.step (.takePlan commit)).map fun next =>
      match (Pending.takeStashed s.pending.plan nonce).1 with
      | .ok _ => s.move i call call.stage next
      | .error said => s.move i call (.refused (some summary.nonce) said) next
  | some (.took _ _ _) => (s.pending.step (.takeIntent commit)).map fun next => s.move i call call.stage next
  | some (.sending nonce plan checked intent) =>
    (s.pending.step (.broadcast commit outcome)).map fun next =>
      { s.move i call (.returned summary outcome) next with
        sent := (i, ⟨nonce, plan, checked, intent, outcome⟩) :: s.sent }

def step (s : Door Script Address) : Event Script → Option (Door Script Address)
  | .other event =>
    if s.owns event then none else (s.pending.step event).map fun next => { s with pending := next }
  | .preference signMessages => some { s with signMessages := signMessages }
  | .call i conversationId text =>
    if i ∈ s.calls then none
    else
      let enter (stage : Stage Address) : Call Address := ⟨conversationId, s.signMessages, none, stage⟩
      some { s with calls := s.calls.insert i (
        if text.toList.all SideFiles.isWhitespace then enter (.refused none "enter a message")
        else if s.signMessages then enter (.refused none UNCEREMONIOUS_OFF)
        else enter .asked) }
  | .bind i =>
    match s.calls.lookup i with
    | some ⟨conversationId, signMessages, _, .asked⟩ =>
      match boundAddress addresses s.pending.store conversationId with
      | .error said => some (s.move i ⟨conversationId, signMessages, none, .asked⟩ (.refused none said) s.pending)
      | .ok expected => some (s.move i ⟨conversationId, signMessages, some expected, .asked⟩ .bound s.pending)
    | _ => none
  | .plan i =>
    match s.calls.lookup i with
    | some ⟨conversationId, signMessages, expected, .bound⟩ =>
      match planComm addresses s.pending.store conversationId with
      | .error said => some (s.move i ⟨conversationId, signMessages, expected, .bound⟩ (.refused none said) s.pending)
      | .ok plan => some (s.move i ⟨conversationId, signMessages, expected, .bound⟩ (.planned plan) s.pending)
    | _ => none
  | .fail i said =>
    match s.calls.lookup i with
    | some ⟨conversationId, signMessages, expected, stage⟩ =>
      match stage with
      | .asked | .bound | .planned _ =>
        some (s.move i ⟨conversationId, signMessages, expected, stage⟩ (.refused none said) s.pending)
      | _ => none
    | none => none
  | .build i prepared reseal timestampMs wire =>
    match s.calls.lookup i with
    | some ⟨conversationId, signMessages, expected, .planned plan⟩ =>
      if prepared.summary.destination = addresses.print plan.ownAddress then
        let intent := TransportIntent.comm conversationId plan.myAlias reseal plan.bound timestampMs wire
        let summary := projectSignable s.pending.nonce (kindOfIntent intent) prepared.summary
        (s.pending.step (.allot prepared intent)).map fun next =>
          s.move i ⟨conversationId, signMessages, expected, .planned plan⟩ (.preparing summary) next
      else none
    | _ => none
  | .stashIntent i =>
    match s.calls.lookup i with
    | some ⟨conversationId, signMessages, expected, .preparing summary⟩ =>
      (s.pending.step (.storeIntent summary.nonce)).map fun next =>
        s.move i ⟨conversationId, signMessages, expected, .preparing summary⟩ (.preparing summary) next
    | _ => none
  | .stashPlan i =>
    match s.calls.lookup i with
    | some ⟨conversationId, signMessages, expected, .preparing summary⟩ =>
      (s.pending.step (.storePlan summary.nonce)).map fun next =>
        s.move i ⟨conversationId, signMessages, expected, .preparing summary⟩ (.prepared summary) next
    | _ => none
  | .confine i =>
    match s.calls.lookup i with
    | some ⟨conversationId, signMessages, some expected, .prepared summary⟩ =>
      let confined := match s.pending.plan with
        | some (stored, prepared) => decide (stored = summary.nonce) && prepared.paysOnly addresses expected
        -- no plan under this nonce is not a pass
        | none => false
      some (s.move i ⟨conversationId, signMessages, some expected, .prepared summary⟩
        (if confined then .confined summary else .abandoning summary.nonce UNCEREMONIOUS_NEEDS_CONFIRMING)
        s.pending)
    | _ => none
  | .judge i commit =>
    match s.calls.lookup i with
    | some ⟨conversationId, signMessages, some expected, .confined summary⟩ =>
      match unceremoniousRefusal summary (addresses.print expected) signMessages with
      | some refusal =>
        some (s.move i ⟨conversationId, signMessages, some expected, .confined summary⟩
          (.abandoning summary.nonce (refusal.text summary.feeSompi)) s.pending)
      | none =>
        if s.owns (.commit commit summary.nonce) then none
        else
          (s.pending.step (.commit commit summary.nonce)).map fun next =>
            s.move i ⟨conversationId, signMessages, some expected, .confined summary⟩
              (.committing summary commit) next
    | _ => none
  | .abandonPlan i =>
    match s.calls.lookup i with
    | some ⟨conversationId, signMessages, expected, .abandoning nonce said⟩ =>
      (s.pending.step .abandonPlan).map fun next =>
        s.move i ⟨conversationId, signMessages, expected, .abandoning nonce said⟩ (.clearing nonce said) next
    | _ => none
  | .abandonIntent i =>
    match s.calls.lookup i with
    | some ⟨conversationId, signMessages, expected, .clearing nonce said⟩ =>
      (s.pending.step .abandonIntent).map fun next =>
        s.move i ⟨conversationId, signMessages, expected, .clearing nonce said⟩ (.refused (some nonce) said) next
    | _ => none
  | .advance i outcome =>
    match s.calls.lookup i with
    | some ⟨conversationId, signMessages, expected, .committing summary commit⟩ =>
      s.advance i ⟨conversationId, signMessages, expected, .committing summary commit⟩ summary commit outcome
    | _ => none

end Door

end CommNow

def Committing.nonce {π : Type} : Committing π → ℕ
  | .checking nonce _ | .refusing nonce | .ready nonce _ _ | .took nonce _ _ | .sending nonce _ _ _ => nonce

/-- The plan a commit has taken. -/
def Committing.plan {π : Type} : Committing π → Option π
  | .took _ plan _ | .sending _ plan _ _ => some plan
  | _ => none

namespace Pending

variable {π : Type} {s next : Pending π} {event : Event π}

/-- A plan that is stored, or that a commit has taken, is what its nonce was prepared as. -/
structure Issued (s : Pending π) : Prop where
  issued : ∀ nonce content, s.prepared.lookup nonce = some content → nonce < s.nonce
  plan : ∀ nonce plan, s.plan = some (nonce, plan) → ∃ intent, s.prepared.lookup nonce = some (plan, intent)
  prepares : ∀ nonce preparing, s.prepares.lookup nonce = some preparing →
    s.prepared.lookup nonce = some (preparing.plan, preparing.intent)
  commits : ∀ id call plan, s.commits.lookup id = some call → call.plan = some plan →
    ∃ intent, s.prepared.lookup call.nonce = some (plan, intent)

/-- What any step leaves of the nonces given out before it. -/
structure Later (s next : Pending π) : Prop where
  prepared : ∀ nonce content, s.prepared.lookup nonce = some content → next.prepared.lookup nonce = some content
  nonce : s.nonce ≤ next.nonce
  prepares : ∀ nonce, nonce ∈ next.prepares → nonce ∈ s.prepares ∨ s.nonce ≤ nonce
  plan : ∀ nonce plan, next.plan = some (nonce, plan) → s.plan = some (nonce, plan) ∨ nonce ∈ s.prepares

/-- The commit a step is of. -/
def Event.commitId : Event π → Option ℕ
  | .commit id _ | .check id | .refuse id | .takePlan id | .takeIntent id | .broadcast id _ => some id
  | _ => none

theorem Later.refl (s : Pending π) : s.Later s :=
  ⟨fun _ _ found => found, le_refl _, fun _ inside => Or.inl inside, fun _ _ found => Or.inl found⟩

/-- A step that stores no plan and moves at most the commit of one id, to one with no new plan. -/
theorem Issued.keeps (issued : s.Issued) (nonce : s.nonce ≤ next.nonce) (prepared : next.prepared = s.prepared)
    (prepares : next.prepares = s.prepares) (plan : ∀ slot, next.plan = some slot → s.plan = some slot)
    (commits : ∀ id call plan, next.commits.lookup id = some call → call.plan = some plan →
      ∃ intent, s.prepared.lookup call.nonce = some (plan, intent)) : next.Issued ∧ s.Later next := by
  refine ⟨⟨?_, ?_, ?_, ?_⟩, ?_, nonce, ?_, ?_⟩
  · intro other content found
    rw [prepared] at found
    exact Nat.lt_of_lt_of_le (issued.issued other content found) nonce
  · intro other held found
    rw [prepared]
    exact issued.plan other held (plan _ found)
  · intro other preparing found
    rw [prepares] at found
    rw [prepared]
    exact issued.prepares other preparing found
  · intro id call held found taken
    rw [prepared]
    exact commits id call held found taken
  · intro other content found
    rw [prepared]
    exact found
  · intro other inside
    rw [prepares] at inside
    exact Or.inl inside
  · exact fun other held found => Or.inl (plan _ found)

theorem Issued.moves (issued : s.Issued) {id : ℕ} {call : Committing π}
    (known : ∀ plan, call.plan = some plan → ∃ intent, s.prepared.lookup call.nonce = some (plan, intent)) :
    ∀ other held plan, (s.commits.insert id call).lookup other = some held → held.plan = some plan →
      ∃ intent, s.prepared.lookup held.nonce = some (plan, intent) := by
  intro other held plan found taken
  rcases KeyMap.lookup_insert_some.mp found with ⟨_, rfl⟩ | ⟨_, before⟩
  · exact known plan taken
  · exact issued.commits other held plan before taken

theorem Issued.ends (issued : s.Issued) {id : ℕ} :
    ∀ other held plan, (s.commits.erase id).lookup other = some held → held.plan = some plan →
      ∃ intent, s.prepared.lookup held.nonce = some (plan, intent) := by
  intro other held plan found taken
  exact issued.commits other held plan (KeyMap.lookup_erase_some.mp found).2 taken

theorem Issued.step (issued : s.Issued) (happens : s.step event = some next) : next.Issued ∧ s.Later next := by
  cases event with
  | payment =>
    cases happens
    exact issued.keeps (Nat.le_succ _) rfl rfl (fun _ found => found) issued.commits
  | allot plan intent =>
    cases happens
    have fresh : ∀ nonce content, s.prepared.lookup nonce = some content → nonce ≠ s.nonce :=
      fun nonce content found => Nat.ne_of_lt (issued.issued nonce content found)
    have kept : ∀ nonce content, s.prepared.lookup nonce = some content →
        (s.prepared.insert s.nonce (plan, intent)).lookup nonce = some content :=
      fun nonce content found => (AList.lookup_insert_ne (fresh nonce content found)).trans found
    refine ⟨⟨?_, ?_, ?_, ?_⟩, kept, Nat.le_succ _, ?_, fun _ _ found => Or.inl found⟩
    · intro nonce content found
      rcases KeyMap.lookup_insert_some.mp found with ⟨rfl, _⟩ | ⟨_, before⟩
      · exact Nat.lt_succ_self _
      · exact Nat.lt_succ_of_lt (issued.issued nonce content before)
    · intro nonce held found
      obtain ⟨known, at_⟩ := issued.plan nonce held found
      exact ⟨known, kept _ _ at_⟩
    · intro nonce preparing found
      rcases KeyMap.lookup_insert_some.mp found with ⟨rfl, rfl⟩ | ⟨_, before⟩
      · exact AList.lookup_insert _
      · exact kept _ _ (issued.prepares nonce preparing before)
    · intro id call held found taken
      obtain ⟨known, at_⟩ := issued.commits id call held found taken
      exact ⟨known, kept _ _ at_⟩
    · intro nonce inside
      rw [AList.mem_insert] at inside
      rcases inside with same | before
      · exact Or.inr (Nat.le_of_eq same.symm)
      · exact Or.inl before
  | storeIntent nonce =>
    simp only [Pending.step] at happens
    split at happens
    case h_1 plan intent preparing =>
      cases happens
      have known := issued.prepares nonce _ preparing
      refine ⟨⟨issued.issued, issued.plan, ?_, issued.commits⟩, fun _ _ found => found, le_refl _, ?_,
        fun _ _ found => Or.inl found⟩
      · intro other held found
        rcases KeyMap.lookup_insert_some.mp found with ⟨rfl, rfl⟩ | ⟨_, before⟩
        · exact known
        · exact issued.prepares other held before
      · intro other inside
        rw [AList.mem_insert] at inside
        rcases inside with same | before
        · exact Or.inl (same ▸ KeyMap.mem_of_lookup preparing)
        · exact Or.inl before
    case h_2 => cases happens
  | storePlan nonce =>
    simp only [Pending.step] at happens
    split at happens
    case h_1 plan intent preparing =>
      cases happens
      have known := issued.prepares nonce _ preparing
      refine ⟨⟨issued.issued, ?_, ?_, issued.commits⟩, fun _ _ found => found, le_refl _, ?_, ?_⟩
      · intro other held found
        cases found
        exact ⟨intent, known⟩
      · exact fun other held found => issued.prepares other held (KeyMap.lookup_erase_some.mp found).2
      · exact fun other inside => Or.inl (AList.mem_erase.mp inside).2
      · intro other held found
        cases found
        exact Or.inr (KeyMap.mem_of_lookup preparing)
    case h_2 => cases happens
  | abandonPlan =>
    cases happens
    exact issued.keeps (le_refl _) rfl rfl (fun _ found => nomatch found) issued.commits
  | abandonIntent =>
    simp only [Pending.step] at happens
    split at happens
    · cases happens
    · cases happens
      exact issued.keeps (le_refl _) rfl rfl (fun _ found => found) issued.commits
  | hub store =>
    cases happens
    exact issued.keeps (le_refl _) rfl rfl (fun _ found => found) issued.commits
  | commit id nonce =>
    simp only [Pending.step] at happens
    split at happens
    · cases happens
    · cases happens
      refine issued.keeps (le_refl _) rfl rfl (fun _ found => found) (issued.moves ?_)
      intro plan taken
      split at taken
      all_goals cases taken
  | check id =>
    simp only [Pending.step] at happens
    split at happens
    case h_1 nonce target checking =>
      cases happens
      refine issued.keeps (le_refl _) rfl rfl (fun _ found => found) (issued.moves ?_)
      intro plan taken
      split at taken
      all_goals cases taken
    case h_2 => cases happens
  | refuse id =>
    simp only [Pending.step] at happens
    split at happens
    case h_1 nonce refusing =>
      cases happens
      exact issued.keeps (le_refl _) rfl rfl (fun _ found => nomatch found) issued.ends
    case h_2 => cases happens
  | takePlan id =>
    simp only [Pending.step] at happens
    split at happens
    case h_1 nonce checked seen ready =>
      split at happens
      case h_1 plan after takes =>
        obtain ⟨stored, rfl⟩ := takeStashed_ok takes
        cases happens
        refine issued.keeps (le_refl _) rfl rfl (fun _ found => nomatch found) (issued.moves ?_)
        intro held taken
        cases taken
        exact issued.plan nonce plan stored
      case h_2 said after takes =>
        obtain ⟨rfl, _⟩ := takeStashed_error takes
        cases happens
        exact issued.keeps (le_refl _) rfl rfl (fun _ found => found) issued.ends
    case h_2 => cases happens
  | takeIntent id =>
    simp only [Pending.step] at happens
    split at happens
    case h_1 nonce plan checked took =>
      cases happens
      refine issued.keeps (le_refl _) rfl rfl (fun _ found => found) (issued.moves ?_)
      intro held taken
      cases taken
      exact issued.commits id (.took nonce plan checked) plan took rfl
    case h_2 => cases happens
  | broadcast id outcome =>
    simp only [Pending.step] at happens
    split at happens
    case h_1 nonce plan checked intent sending =>
      cases happens
      exact issued.keeps (le_refl _) rfl rfl (fun _ found => found) issued.ends
    case h_2 => cases happens

/-- Only a commit's own steps move it. -/
theorem step_commits (happens : s.step event = some next) {id : ℕ} (elsewhere : event.commitId ≠ some id) :
    next.commits.lookup id = s.commits.lookup id := by
  have other : ∀ {moved : ℕ}, event.commitId = some moved → id ≠ moved := by
    intro moved isOf same
    exact elsewhere (same ▸ isOf)
  cases event with
  | payment | allot _ _ | abandonPlan | hub _ =>
    cases happens
    rfl
  | storeIntent nonce | storePlan nonce | abandonIntent =>
    simp only [Pending.step] at happens
    split at happens
    all_goals cases happens
    all_goals rfl
  | commit moved nonce =>
    simp only [Pending.step] at happens
    split at happens
    · cases happens
    · cases happens
      exact AList.lookup_insert_ne (other rfl)
  | check moved | takeIntent moved =>
    simp only [Pending.step] at happens
    split at happens
    · cases happens
      exact AList.lookup_insert_ne (other rfl)
    · cases happens
  | refuse moved | broadcast moved _ =>
    simp only [Pending.step] at happens
    split at happens
    · cases happens
      exact AList.lookup_erase_ne (other rfl)
    · cases happens
  | takePlan moved =>
    simp only [Pending.step] at happens
    split at happens
    · split at happens
      · cases happens
        exact AList.lookup_insert_ne (other rfl)
      · cases happens
        exact AList.lookup_erase_ne (other rfl)
    · cases happens

/-- No plan of the nonce is stored, and none will be. -/
structure Gone (s : Pending π) (nonce : ℕ) : Prop where
  given : nonce < s.nonce
  prepares : nonce ∉ s.prepares
  plan : ∀ plan, s.plan ≠ some (nonce, plan)

theorem Gone.later {nonce : ℕ} (gone : s.Gone nonce) (later : s.Later next) : next.Gone nonce := by
  refine ⟨Nat.lt_of_lt_of_le gone.given later.nonce, ?_, ?_⟩
  · intro inside
    rcases later.prepares nonce inside with before | fresh
    · exact gone.prepares before
    · exact Nat.not_lt.mpr fresh gone.given
  · intro plan found
    rcases later.plan nonce plan found with before | stored
    · exact gone.plan plan before
    · exact gone.prepares stored

end Pending

namespace CommNow

variable {Script Prefix Address : Type} {addresses : Addresses Script Prefix Address}

/-- The call has read that it need not ask, and built this plan for its own conversation. -/
structure Made (pending : Pending (PreparedSend Script)) (call : Call Address) (summary : SignableSummary)
    (expected : Address) (plan : PreparedSend Script) : Prop where
  unasked : call.signMessages = false
  reads : call.expected = some expected
  prepared : ∃ aliasOnWire reseal sealedTo timestampMs wire, pending.prepared.lookup summary.nonce =
    some (plan, .comm call.conversationId aliasOnWire reseal sealedTo timestampMs wire)
  shown : summary = projectSignable summary.nonce .selfSendFrame plan.summary

section Holds

variable (addresses) [DecidableEq Address]

/-- The plan passed every check of the door. -/
structure Vetted (pending : Pending (PreparedSend Script)) (call : Call Address) (summary : SignableSummary)
    (expected : Address) (plan : PreparedSend Script) : Prop extends Made pending call summary expected plan where
  confined : plan.paysOnly addresses expected = true
  judged : unceremoniousRefusal summary (addresses.print expected) call.signMessages = none

/-- What holds of a call where it stands. -/
def Call.Holds (pending : Pending (PreparedSend Script)) (call : Call Address) : Prop :=
  match call.stage with
  | .asked => call.signMessages = false
  | .bound | .planned _ => call.signMessages = false ∧ ∃ expected, call.expected = some expected
  | .preparing summary => ∃ expected plan, Made pending call summary expected plan
  | .prepared summary => summary.nonce ∉ pending.prepares ∧ ∃ expected plan, Made pending call summary expected plan
  | .confined summary => summary.nonce ∉ pending.prepares ∧
      ∃ expected plan, Made pending call summary expected plan ∧ plan.paysOnly addresses expected = true
  | .committing summary commit => summary.nonce ∉ pending.prepares ∧
      (∃ expected plan, Vetted addresses pending call summary expected plan) ∧
      ∀ running, pending.commits.lookup commit = some running → running.nonce = summary.nonce
  | .abandoning nonce _ => nonce < pending.nonce ∧ nonce ∉ pending.prepares
  | .clearing nonce _ => pending.Gone nonce
  | .refused nonce _ => ∀ own, nonce = some own → pending.Gone own
  | .returned summary _ => ∃ expected plan, Vetted addresses pending call summary expected plan

end Holds

theorem Made.later {pending next : Pending (PreparedSend Script)} {call : Call Address}
    {summary : SignableSummary} {expected : Address} {plan : PreparedSend Script} (made : Made pending call summary expected plan)
    (later : pending.Later next) : Made next call summary expected plan := by
  obtain ⟨aliasOnWire, reseal, sealedTo, timestampMs, wire, found⟩ := made.prepared
  exact ⟨made.unasked, made.reads, ⟨aliasOnWire, reseal, sealedTo, timestampMs, wire,
    later.prepared _ _ found⟩, made.shown⟩

theorem Made.goto {pending : Pending (PreparedSend Script)} {call : Call Address} {summary : SignableSummary}
    {expected : Address} {plan : PreparedSend Script} (made : Made pending call summary expected plan)
    (stage : Stage Address) : Made pending { call with stage := stage } summary expected plan :=
  ⟨made.unasked, made.reads, made.prepared, made.shown⟩

theorem Made.given {pending : Pending (PreparedSend Script)} {call : Call Address} {summary : SignableSummary}
    {expected : Address} {plan : PreparedSend Script} (made : Made pending call summary expected plan)
    (issued : pending.Issued) : summary.nonce < pending.nonce := by
  obtain ⟨_, _, _, _, _, found⟩ := made.prepared
  exact issued.issued _ _ found

theorem absent_later {pending next : Pending (PreparedSend Script)} {nonce : ℕ} (later : pending.Later next)
    (given : nonce < pending.nonce) (absent : nonce ∉ pending.prepares) : nonce ∉ next.prepares := by
  intro inside
  rcases later.prepares nonce inside with before | fresh
  · exact absent before
  · exact Nat.not_lt.mpr fresh given

section Sound

variable [DecidableEq Address]

theorem Vetted.later {pending next : Pending (PreparedSend Script)} {call : Call Address}
    {summary : SignableSummary} {expected : Address} {plan : PreparedSend Script}
    (vetted : Vetted addresses pending call summary expected plan) (later : pending.Later next) :
    Vetted addresses next call summary expected plan :=
  ⟨vetted.toMade.later later, vetted.confined, vetted.judged⟩

theorem Vetted.goto {pending : Pending (PreparedSend Script)} {call : Call Address} {summary : SignableSummary}
    {expected : Address} {plan : PreparedSend Script} (vetted : Vetted addresses pending call summary expected plan)
    (stage : Stage Address) : Vetted addresses pending { call with stage := stage } summary expected plan :=
  ⟨vetted.toMade.goto stage, vetted.confined, vetted.judged⟩

/-- What holds of a call stays while others move, its own commit apart. -/
theorem Call.Holds.later {pending next : Pending (PreparedSend Script)} {call : Call Address}
    (holds : call.Holds addresses pending) (issued : pending.Issued) (later : pending.Later next)
    (commits : ∀ id, Door.running call.stage = some id → next.commits.lookup id = pending.commits.lookup id) :
    call.Holds addresses next := by
  obtain ⟨conversationId, signMessages, expected, stage⟩ := call
  cases stage with
  | asked | bound | planned _ => exact holds
  | preparing summary =>
    obtain ⟨known, plan, made⟩ := holds
    exact ⟨known, plan, made.later later⟩
  | prepared summary =>
    obtain ⟨absent, known, plan, made⟩ := holds
    exact ⟨absent_later later (made.given issued) absent, known, plan, made.later later⟩
  | confined summary =>
    obtain ⟨absent, known, plan, made, confined⟩ := holds
    exact ⟨absent_later later (made.given issued) absent, known, plan, made.later later, confined⟩
  | committing summary commit =>
    obtain ⟨absent, ⟨known, plan, vetted⟩, same⟩ := holds
    refine ⟨absent_later later (vetted.toMade.given issued) absent, ⟨known, plan, vetted.later later⟩, ?_⟩
    intro running found
    rw [commits commit rfl] at found
    exact same running found
  | abandoning nonce said =>
    obtain ⟨given, absent⟩ := holds
    exact ⟨Nat.lt_of_lt_of_le given later.nonce, absent_later later given absent⟩
  | clearing nonce said => exact Pending.Gone.later holds later
  | refused nonce said => exact fun own same => (holds own same).later later
  | returned summary outcome =>
    obtain ⟨known, plan, vetted⟩ := holds
    exact ⟨known, plan, vetted.later later⟩

namespace Door

variable {s next : Door Script Address} {event : Event Script}

variable (addresses) in
/-- The stashes hold what was prepared, every call holds what its stage says, no two run one commit,
    and what a call broadcast is of the nonce it returned with. -/
structure Sound (s : Door Script Address) : Prop where
  issued : s.pending.Issued
  calls : ∀ i call, s.calls.lookup i = some call → call.Holds addresses s.pending
  apart : ∀ i j call other id, s.calls.lookup i = some call → s.calls.lookup j = some other →
    running call.stage = some id → running other.stage = some id → i = j
  sent : ∀ i b, (i, b) ∈ s.sent → ∃ call summary outcome, s.calls.lookup i = some call ∧
    call.stage = .returned summary outcome ∧ b.nonce = summary.nonce ∧
    ∃ intent, s.pending.prepared.lookup b.nonce = some (b.plan, intent)

/-- One call moves on and leaves the commits of the others. -/
theorem Sound.move (sound : s.Sound addresses) {i : ℕ} {call : Call Address} {stage : Stage Address}
    {pending : Pending (PreparedSend Script)} (issued : pending.Issued) (later : s.pending.Later pending)
    (open_ : ∀ held, s.calls.lookup i = some held → ∀ summary outcome, held.stage ≠ .returned summary outcome)
    (commits : ∀ j other id, s.calls.lookup j = some other → j ≠ i → running other.stage = some id →
      pending.commits.lookup id = s.pending.commits.lookup id)
    (fresh : ∀ j other id, s.calls.lookup j = some other → j ≠ i → running stage = some id →
      running other.stage ≠ some id)
    (holds : ({ call with stage := stage } : Call Address).Holds addresses pending) :
    (s.move i call stage pending).Sound addresses := by
  refine ⟨issued, ?_, ?_, ?_⟩
  · intro j other found
    rcases KeyMap.lookup_insert_some.mp found with ⟨rfl, rfl⟩ | ⟨away, before⟩
    · exact holds
    · exact (sound.calls j other before).later sound.issued later fun id runs => commits j other id before away runs
  · intro j k one other id found_j found_k runs_j runs_k
    rcases KeyMap.lookup_insert_some.mp found_j with ⟨rfl, rfl⟩ | ⟨away_j, before_j⟩ <;>
      rcases KeyMap.lookup_insert_some.mp found_k with ⟨rfl, rfl⟩ | ⟨away_k, before_k⟩
    · rfl
    · exact absurd runs_k (fresh k other id before_k away_k runs_j)
    · exact absurd runs_j (fresh j one id before_j away_j runs_k)
    · exact sound.apart j k one other id before_j before_k runs_j runs_k
  · intro j b member
    obtain ⟨held, summary, outcome, found, returned, same, intent, known⟩ := sound.sent j b member
    have away : j ≠ i := by
      rintro rfl
      exact open_ held found summary outcome returned
    exact ⟨held, summary, outcome, (AList.lookup_insert_ne away).trans found, returned, same, intent,
      later.prepared _ _ known⟩

omit [DecidableEq Address] in
theorem owned {event : Pending.Event (PreparedSend Script)} (free : s.owns event = false) {i : ℕ}
    {call : Call Address} (found : s.calls.lookup i = some call) {id : ℕ} (isOf : event.commitId = some id) :
    running call.stage ≠ some id := by
  intro runs
  have member : call ∈ s.calls.values := KeyMap.mem_values_iff.mpr ⟨i, found⟩
  cases event with
  | commit moved _ | check moved | refuse moved | takePlan moved | takeIntent moved | broadcast moved _ =>
    cases isOf
    have none := List.any_eq_false.mp free call member
    rw [runs, beq_self_eq_true] at none
    exact none rfl
  | payment | allot _ _ | storeIntent _ | storePlan _ | abandonPlan | abandonIntent | hub _ => cases isOf

theorem Sound.enter (sound : s.Sound addresses) {i : ℕ} (absent : i ∉ s.calls) {call : Call Address}
    (quiet : running call.stage = none) (holds : call.Holds addresses s.pending) :
    Door.Sound addresses { s with calls := s.calls.insert i call } := by
  have entered : (s.move i call call.stage s.pending).Sound addresses := by
    apply sound.move sound.issued (Pending.Later.refl _) ?_ (fun _ _ _ _ _ _ => rfl) ?_ holds
    · exact fun held found => absurd (KeyMap.mem_of_lookup found) absent
    · intro _ _ id _ _ runs
      rw [quiet] at runs
      cases runs
  exact entered

/-- A call moves without a step of the stashes. -/
theorem Sound.stand (sound : s.Sound addresses) {i : ℕ} {call held : Call Address} {stage : Stage Address}
    (found : s.calls.lookup i = some held)
    (open_ : ∀ summary outcome, held.stage ≠ .returned summary outcome)
    (quiet : running stage = none)
    (holds : ({ call with stage := stage } : Call Address).Holds addresses s.pending) :
    (s.move i call stage s.pending).Sound addresses := by
  apply sound.move sound.issued (Pending.Later.refl _) ?_ (fun _ _ _ _ _ _ => rfl) ?_ holds
  · intro other same
    rw [found] at same
    cases same
    exact open_
  · intro _ _ id _ _ runs
    rw [quiet] at runs
    cases runs

/-- A call moves by a step of the commit it runs. -/
theorem Sound.drive (sound : s.Sound addresses) {i commit : ℕ} {call held : Call Address} {stage : Stage Address}
    {event : Pending.Event (PreparedSend Script)} {pending : Pending (PreparedSend Script)}
    (found : s.calls.lookup i = some held) (runs : running held.stage = some commit)
    (own : event.commitId = some commit) (stays : ∀ id, running stage = some id → id = commit)
    (happens : s.pending.step event = some pending)
    (holds : ({ call with stage := stage } : Call Address).Holds addresses pending) :
    (s.move i call stage pending).Sound addresses := by
  obtain ⟨issued, later⟩ := sound.issued.step happens
  apply sound.move issued later ?_ ?_ ?_ holds
  · intro other same summary outcome returned
    rw [found] at same
    cases same
    rw [returned] at runs
    cases runs
  · intro j other id at_ away theirs
    apply Pending.step_commits happens
    rw [own]
    intro same
    cases same
    exact away (sound.apart j i other held commit at_ found theirs runs)
  · intro j other id at_ away mine theirs
    have same := stays id mine
    subst same
    exact away (sound.apart j i other held id at_ found theirs runs)

/-- A call moves by a step of the stashes that is of no commit. -/
theorem Sound.stash (sound : s.Sound addresses) {i : ℕ} {call held : Call Address} {stage : Stage Address}
    {event : Pending.Event (PreparedSend Script)} {pending : Pending (PreparedSend Script)}
    (found : s.calls.lookup i = some held)
    (open_ : ∀ summary outcome, held.stage ≠ .returned summary outcome)
    (quiet : running stage = none) (noCommit : event.commitId = none)
    (happens : s.pending.step event = some pending)
    (holds : ({ call with stage := stage } : Call Address).Holds addresses pending) :
    (s.move i call stage pending).Sound addresses := by
  obtain ⟨issued, later⟩ := sound.issued.step happens
  apply sound.move issued later ?_ ?_ ?_ holds
  · intro other same
    rw [found] at same
    cases same
    exact open_
  · intro _ _ id _ _ _
    apply Pending.step_commits happens
    rw [noCommit]
    exact fun same => nomatch same
  · intro _ _ id _ _ runs
    rw [quiet] at runs
    cases runs

/-- A step of a call's own commit broadcasts the plan of its own nonce, or nothing. -/
theorem Sound.advance (sound : s.Sound addresses) {i commit : ℕ} {conversationId : String} {signMessages : Bool}
    {expected : Option Address} {summary : SignableSummary} {outcome : SendOutcome}
    (found : s.calls.lookup i = some ⟨conversationId, signMessages, expected, .committing summary commit⟩)
    (happens : Door.advance s i ⟨conversationId, signMessages, expected, .committing summary commit⟩ summary commit
      outcome = some next) : next.Sound addresses := by
  obtain ⟨absent, ⟨address, plan, vetted⟩, same⟩ := sound.calls i _ found
  have given := vetted.toMade.given sound.issued
  have stays : ∀ id, some commit = some id → id = commit := fun _ same => (Option.some.inj same).symm
  unfold Door.advance at happens
  split at happens
  case h_1 => cases happens
  case h_2 nonce target checking =>
    obtain ⟨pending, did, rfl⟩ := Option.map_eq_some_iff.mp happens
    obtain ⟨_, later⟩ := sound.issued.step did
    refine sound.drive found rfl rfl stays did ?_
    refine ⟨absent_later later given absent, ⟨address, plan, (vetted.later later).goto _⟩, ?_⟩
    intro running at_
    simp only [Pending.step, checking] at did
    cases did
    rw [AList.lookup_insert] at at_
    cases at_
    have isOwn : nonce = summary.nonce := same _ checking
    split <;> exact isOwn
  case h_3 nonce refusing =>
    obtain ⟨pending, did, rfl⟩ := Option.map_eq_some_iff.mp happens
    obtain ⟨_, later⟩ := sound.issued.step did
    refine sound.drive found rfl rfl (fun _ none => nomatch none) did ?_
    refine ⟨Nat.lt_of_lt_of_le given later.nonce, absent_later later given absent, ?_⟩
    simp only [Pending.step, refusing] at did
    cases did
    exact fun _ none => nomatch none
  case h_4 nonce checked seen ready =>
    obtain ⟨pending, did, rfl⟩ := Option.map_eq_some_iff.mp happens
    obtain ⟨_, later⟩ := sound.issued.step did
    have isOwn : nonce = summary.nonce := same _ ready
    simp only
    split
    case h_1 taken takes =>
      refine sound.drive found rfl rfl stays did ?_
      refine ⟨absent_later later given absent, ⟨address, plan, (vetted.later later).goto _⟩, ?_⟩
      intro running at_
      simp only [Pending.step, ready] at did
      split at did
      · cases did
        rw [AList.lookup_insert] at at_
        cases at_
        exact isOwn
      · cases did
        rw [AList.lookup_erase] at at_
        cases at_
    case h_2 said takes =>
      refine sound.drive found rfl rfl (fun _ none => nomatch none) did ?_
      rintro own same
      cases same
      have refused : Pending.takeStashed s.pending.plan nonce =
          (.error said, (Pending.takeStashed s.pending.plan nonce).2) :=
        Prod.ext takes rfl
      obtain ⟨_, elsewhere⟩ := Pending.takeStashed_error refused
      rw [isOwn] at elsewhere
      exact Pending.Gone.later ⟨given, absent, elsewhere⟩ later
  case h_5 nonce held checked took =>
    obtain ⟨pending, did, rfl⟩ := Option.map_eq_some_iff.mp happens
    obtain ⟨_, later⟩ := sound.issued.step did
    refine sound.drive found rfl rfl stays did ?_
    refine ⟨absent_later later given absent, ⟨address, plan, (vetted.later later).goto _⟩, ?_⟩
    intro running at_
    simp only [Pending.step, took] at did
    cases did
    rw [AList.lookup_insert] at at_
    cases at_
    exact same (.took nonce held checked) took
  case h_6 nonce held checked intent sending =>
    obtain ⟨pending, did, rfl⟩ := Option.map_eq_some_iff.mp happens
    obtain ⟨_, later⟩ := sound.issued.step did
    have moved : (s.move i ⟨conversationId, signMessages, expected, .committing summary commit⟩
        (.returned summary outcome) pending).Sound addresses := by
      refine sound.drive found rfl rfl (fun _ none => nomatch none) did ?_
      exact ⟨address, plan, (vetted.later later).goto _⟩
    refine ⟨moved.issued, moved.calls, moved.apart, ?_⟩
    intro j b member
    rcases List.mem_cons.mp member with own | before
    · cases own
      obtain ⟨known, prepared⟩ := sound.issued.commits commit _ held sending rfl
      exact ⟨_, summary, outcome, AList.lookup_insert _, rfl, same _ sending, known, later.prepared _ _ prepared⟩
    · exact moved.sent j b before

theorem Sound.step (sound : s.Sound addresses) (happens : s.step addresses event = some next) :
    next.Sound addresses := by
  cases event with
  | other event =>
    simp only [Door.step] at happens
    split at happens
    case isTrue => cases happens
    case isFalse free =>
      obtain ⟨pending, did, rfl⟩ := Option.map_eq_some_iff.mp happens
      obtain ⟨issued, later⟩ := sound.issued.step did
      have free := Bool.eq_false_iff.mpr free
      refine ⟨issued, ?_, sound.apart, ?_⟩
      · intro i call found
        apply (sound.calls i call found).later sound.issued later
        intro id runs
        exact Pending.step_commits did fun isOf => owned free found isOf runs
      · intro i b member
        obtain ⟨held, summary, outcome, found, returned, same, intent, known⟩ := sound.sent i b member
        exact ⟨held, summary, outcome, found, returned, same, intent, later.prepared _ _ known⟩
  | preference signMessages =>
    cases happens
    exact ⟨sound.issued, sound.calls, sound.apart, sound.sent⟩
  | call i conversationId text =>
    simp only [Door.step] at happens
    split at happens
    case isTrue => cases happens
    case isFalse absent =>
      cases happens
      apply sound.enter absent
      · split
        · rfl
        · split <;> rfl
      · split
        · exact fun _ same => nomatch same
        · split
          · exact fun _ same => nomatch same
          case isFalse unasked => exact Bool.eq_false_iff.mpr unasked
  | bind i =>
    simp only [Door.step] at happens
    split at happens
    case h_1 conversationId signMessages before found =>
      have unasked := sound.calls i _ found
      split at happens
      · cases happens
        exact sound.stand found (fun _ _ same => nomatch same) rfl fun _ same => nomatch same
      case h_2 expected _ =>
        cases happens
        exact sound.stand found (fun _ _ same => nomatch same) rfl ⟨unasked, expected, rfl⟩
    case h_2 => cases happens
  | plan i =>
    simp only [Door.step] at happens
    split at happens
    case h_1 conversationId signMessages expected found =>
      have read := sound.calls i _ found
      split at happens
      · cases happens
        exact sound.stand found (fun _ _ same => nomatch same) rfl fun _ same => nomatch same
      · cases happens
        exact sound.stand found (fun _ _ same => nomatch same) rfl read
    case h_2 => cases happens
  | fail i said =>
    simp only [Door.step] at happens
    split at happens
    case h_1 conversationId signMessages expected stage found =>
      split at happens
      · cases happens
        exact sound.stand found (fun _ _ same => nomatch same) rfl fun _ same => nomatch same
      · cases happens
        exact sound.stand found (fun _ _ same => nomatch same) rfl fun _ same => nomatch same
      · cases happens
        exact sound.stand found (fun _ _ same => nomatch same) rfl fun _ same => nomatch same
      · cases happens
    case h_2 => cases happens
  | build i prepared reseal timestampMs wire =>
    simp only [Door.step] at happens
    split at happens
    case h_1 conversationId signMessages expected plan found =>
      obtain ⟨unasked, address, isRead⟩ := sound.calls i _ found
      split at happens
      case isTrue =>
        obtain ⟨pending, did, rfl⟩ := Option.map_eq_some_iff.mp happens
        apply sound.stash found (fun _ _ same => nomatch same) rfl rfl did
        cases did
        exact ⟨address, prepared, unasked, isRead,
          ⟨plan.myAlias, reseal, plan.bound, timestampMs, wire, AList.lookup_insert _⟩, rfl⟩
      case isFalse => cases happens
    case h_2 => cases happens
  | stashIntent i =>
    simp only [Door.step] at happens
    split at happens
    case h_1 conversationId signMessages expected summary found =>
      obtain ⟨pending, did, rfl⟩ := Option.map_eq_some_iff.mp happens
      obtain ⟨_, later⟩ := sound.issued.step did
      obtain ⟨address, plan, made⟩ := sound.calls i _ found
      exact sound.stash found (fun _ _ same => nomatch same) rfl rfl did
        ⟨address, plan, (made.later later).goto _⟩
    case h_2 => cases happens
  | stashPlan i =>
    simp only [Door.step] at happens
    split at happens
    case h_1 conversationId signMessages expected summary found =>
      obtain ⟨pending, did, rfl⟩ := Option.map_eq_some_iff.mp happens
      obtain ⟨_, later⟩ := sound.issued.step did
      obtain ⟨address, plan, made⟩ := sound.calls i _ found
      apply sound.stash found (fun _ _ same => nomatch same) rfl rfl did
      refine ⟨?_, address, plan, (made.later later).goto _⟩
      simp only [Pending.step] at did
      split at did
      · cases did
        exact fun inside => (AList.mem_erase.mp inside).1 rfl
      · cases did
    case h_2 => cases happens
  | confine i =>
    simp only [Door.step] at happens
    split at happens
    case h_1 conversationId signMessages expected summary found =>
      cases happens
      obtain ⟨absent, address, plan, made⟩ := sound.calls i _ found
      have isRead : address = expected := (Option.some.inj made.reads).symm
      subst isRead
      cases passes : (match s.pending.plan with
        | some (stored, prepared) => decide (stored = summary.nonce) && prepared.paysOnly addresses address
        | none => false) with
      | false => exact sound.stand found (fun _ _ same => nomatch same) rfl ⟨made.given sound.issued, absent⟩
      | true =>
        apply sound.stand found (fun _ _ same => nomatch same) rfl
        cases stored : s.pending.plan with
        | none =>
          rw [stored] at passes
          cases passes
        | some slot =>
          obtain ⟨nonce, prepared⟩ := slot
          rw [stored] at passes
          obtain ⟨same, confined⟩ := (Bool.and_eq_true _ _).mp passes
          have isOwn : nonce = summary.nonce := of_decide_eq_true same
          subst isOwn
          obtain ⟨_, known⟩ := sound.issued.plan _ prepared stored
          obtain ⟨_, _, _, _, _, built⟩ := made.prepared
          rw [known] at built
          cases built
          exact ⟨absent, address, plan, made.goto _, confined⟩
    case h_2 => cases happens
  | judge i commit =>
    simp only [Door.step] at happens
    split at happens
    case h_1 conversationId signMessages expected summary found =>
      obtain ⟨absent, address, plan, made, confined⟩ := sound.calls i _ found
      have isRead : address = expected := (Option.some.inj made.reads).symm
      subst isRead
      split at happens
      · cases happens
        exact sound.stand found (fun _ _ same => nomatch same) rfl ⟨made.given sound.issued, absent⟩
      case h_2 passes =>
        split at happens
        case isTrue => cases happens
        case isFalse free =>
          obtain ⟨pending, did, rfl⟩ := Option.map_eq_some_iff.mp happens
          obtain ⟨issued, later⟩ := sound.issued.step did
          have free := Bool.eq_false_iff.mpr free
          have vetted : Vetted addresses s.pending _ summary address plan := ⟨made, confined, passes⟩
          have unique : ∀ j other id, s.calls.lookup j = some other → j ≠ i → some commit = some id →
              running other.stage ≠ some id := by
            intro j other id at_ _ same
            exact owned free at_ same
          apply sound.move issued later ?_ ?_ unique
          · refine ⟨absent_later later (made.given sound.issued) absent,
              ⟨address, plan, (vetted.later later).goto _⟩, ?_⟩
            intro running at_
            simp only [Pending.step] at did
            split at did
            · cases did
            · cases did
              rw [AList.lookup_insert] at at_
              cases at_
              split <;> rfl
          · intro other same
            rw [found] at same
            cases same
            exact fun _ _ returned => nomatch returned
          · intro j other id at_ away runs
            apply Pending.step_commits did
            exact fun same => owned free at_ same runs
    case h_2 => cases happens
  | abandonPlan i =>
    simp only [Door.step] at happens
    split at happens
    case h_1 conversationId signMessages expected nonce said found =>
      obtain ⟨pending, did, rfl⟩ := Option.map_eq_some_iff.mp happens
      obtain ⟨given, absent⟩ := sound.calls i _ found
      apply sound.stash found (fun _ _ same => nomatch same) rfl rfl did
      cases did
      exact ⟨given, absent, fun _ same => nomatch same⟩
    case h_2 => cases happens
  | abandonIntent i =>
    simp only [Door.step] at happens
    split at happens
    case h_1 conversationId signMessages expected nonce said found =>
      obtain ⟨pending, did, rfl⟩ := Option.map_eq_some_iff.mp happens
      obtain ⟨_, later⟩ := sound.issued.step did
      have gone : s.pending.Gone nonce := sound.calls i _ found
      apply sound.stash found (fun _ _ same => nomatch same) rfl rfl did
      rintro own same
      cases same
      exact gone.later later
    case h_2 => cases happens
  | advance i outcome =>
    simp only [Door.step] at happens
    split at happens
    case h_1 conversationId signMessages expected summary commit found =>
      exact sound.advance found happens
    case h_2 => cases happens

end Door

end Sound

/-- The nonce of the plan a call built, once it has. -/
def Stage.nonce : Stage Address → Option ℕ
  | .asked | .bound | .planned _ => none
  | .preparing summary | .prepared summary | .confined summary | .committing summary _ | .returned summary _ =>
    some summary.nonce
  | .abandoning nonce _ | .clearing nonce _ => some nonce
  | .refused nonce _ => nonce

/-- The call a build is of. -/
def Event.builder : Event Script → Option ℕ
  | .build i _ _ _ _ => some i
  | _ => none

section History

variable (addresses) [DecidableEq Address]

/-- What one step does to what a call has read and built. -/
structure Steps (s next : Door Script Address) (event : Event Script) (i : ℕ) (old new : Call Address) : Prop where
  conversationId : new.conversationId = old.conversationId
  signMessages : new.signMessages = old.signMessages
  expected : ∀ expected, new.expected = some expected → old.expected = some expected ∨
    (event = .bind i ∧ boundAddress addresses s.pending.store new.conversationId = .ok expected)
  nonce : (event.builder ≠ some i ∧ new.stage.nonce = old.stage.nonce) ∨
    ∃ prepared reseal timestampMs wire aliasOnWire sealedTo, event = .build i prepared reseal timestampMs wire ∧
      old.stage.nonce = none ∧ new.stage.nonce = some s.pending.nonce ∧
      next.pending.prepared.lookup s.pending.nonce =
        some (prepared, .comm new.conversationId aliasOnWire reseal sealedTo timestampMs wire)

variable {addresses}

namespace Door

variable {s next : Door Script Address} {event : Event Script} {i : ℕ} {old new : Call Address}

omit [DecidableEq Address] in
theorem Steps.stay (old : Call Address) (other : event.builder ≠ some i) :
    Steps addresses s next event i old old :=
  ⟨rfl, rfl, fun _ same => Or.inl same, Or.inl ⟨other, rfl⟩⟩

omit [DecidableEq Address] in
theorem Steps.keeps {stage after : Stage Address} {conversationId : String} {signMessages : Bool}
    {expected : Option Address} (idle : event.builder ≠ some i) (same : after.nonce = stage.nonce) :
    Steps addresses s next event i ⟨conversationId, signMessages, expected, stage⟩
      ⟨conversationId, signMessages, expected, after⟩ :=
  ⟨rfl, rfl, fun _ same => Or.inl same, Or.inl ⟨idle, same⟩⟩

omit [DecidableEq Address] in
theorem Steps.moved {call : Call Address} {stage : Stage Address} {pending : Pending (PreparedSend Script)} {j : ℕ}
    (found : s.calls.lookup j = some old) (idle : event.builder = none)
    (own : Steps addresses s (s.move j call stage pending) event j old { call with stage := stage })
    (at_ : (s.move j call stage pending).calls.lookup i = some new) :
    ∃ old, s.calls.lookup i = some old ∧ Steps addresses s (s.move j call stage pending) event i old new := by
  rcases KeyMap.lookup_insert_some.mp at_ with ⟨rfl, rfl⟩ | ⟨_, before⟩
  · exact ⟨old, found, own⟩
  · refine ⟨new, before, Steps.stay new ?_⟩
    rw [idle]
    exact fun same => nomatch same

omit [DecidableEq Address] in
/-- A step of the commit a call runs leaves what the call has read and built. -/
theorem Steps.advanced {conversationId : String} {signMessages : Bool} {expected : Option Address}
    {summary : SignableSummary} {commit j : ℕ} {outcome : SendOutcome}
    (found : s.calls.lookup j = some ⟨conversationId, signMessages, expected, .committing summary commit⟩)
    (happens : s.advance j ⟨conversationId, signMessages, expected, .committing summary commit⟩ summary commit
      outcome = some next) (at_ : next.calls.lookup i = some new) :
    ∃ old, s.calls.lookup i = some old ∧ Steps addresses s next (.advance j outcome) i old new := by
  unfold Door.advance at happens
  split at happens
  case h_1 => cases happens
  case h_2 =>
    obtain ⟨pending, _, rfl⟩ := Option.map_eq_some_iff.mp happens
    exact Steps.moved found rfl (Steps.keeps (fun same => nomatch same) rfl) at_
  case h_3 =>
    obtain ⟨pending, _, rfl⟩ := Option.map_eq_some_iff.mp happens
    exact Steps.moved found rfl (Steps.keeps (fun same => nomatch same) rfl) at_
  case h_4 nonce checked seen ready =>
    obtain ⟨pending, _, rfl⟩ := Option.map_eq_some_iff.mp happens
    split at at_
    all_goals exact Steps.moved found rfl (Steps.keeps (fun same => nomatch same) rfl) at_
  case h_5 =>
    obtain ⟨pending, _, rfl⟩ := Option.map_eq_some_iff.mp happens
    exact Steps.moved found rfl (Steps.keeps (fun same => nomatch same) rfl) at_
  case h_6 =>
    obtain ⟨pending, _, rfl⟩ := Option.map_eq_some_iff.mp happens
    rcases KeyMap.lookup_insert_some.mp at_ with ⟨rfl, rfl⟩ | ⟨_, before⟩
    · exact ⟨_, found, Steps.keeps (fun same => nomatch same) rfl⟩
    · exact ⟨new, before, Steps.stay new fun same => nomatch same⟩

/-- A call after a step is the one that was there, or one that enters. -/
theorem steps (happens : s.step addresses event = some next) (at_ : next.calls.lookup i = some new) :
    (s.calls.lookup i = none ∧ (∃ text, event = .call i new.conversationId text) ∧
      new.signMessages = s.signMessages ∧ new.expected = none ∧ new.stage.nonce = none) ∨
    ∃ old, s.calls.lookup i = some old ∧ Steps addresses s next event i old new := by
  cases event with
  | other event =>
    simp only [Door.step] at happens
    split at happens
    · cases happens
    · obtain ⟨pending, _, rfl⟩ := Option.map_eq_some_iff.mp happens
      exact Or.inr ⟨new, at_, Steps.stay new fun same => nomatch same⟩
  | preference signMessages =>
    cases happens
    exact Or.inr ⟨new, at_, Steps.stay new fun same => nomatch same⟩
  | call j conversationId text =>
    simp only [Door.step] at happens
    split at happens
    case isTrue => cases happens
    case isFalse absent =>
      cases happens
      rcases KeyMap.lookup_insert_some.mp at_ with ⟨rfl, rfl⟩ | ⟨_, before⟩
      · left
        refine ⟨AList.lookup_eq_none.mpr absent, ?_⟩
        split
        · exact ⟨⟨text, rfl⟩, rfl, rfl, rfl⟩
        · split <;> exact ⟨⟨text, rfl⟩, rfl, rfl, rfl⟩
      · exact Or.inr ⟨new, before, Steps.stay new fun same => nomatch same⟩
  | bind j =>
    right
    simp only [Door.step] at happens
    split at happens
    case h_1 conversationId signMessages before found =>
      split at happens
      · cases happens
        apply Steps.moved found rfl ?_ at_
        refine ⟨rfl, rfl, ?_, Or.inl ⟨fun same => (nomatch same), rfl⟩⟩
        exact fun _ none => nomatch none
      case h_2 expected reads =>
        cases happens
        apply Steps.moved found rfl ?_ at_
        refine ⟨rfl, rfl, ?_, Or.inl ⟨fun same => (nomatch same), rfl⟩⟩
        intro held same
        cases same
        exact Or.inr ⟨rfl, reads⟩
    case h_2 => cases happens
  | plan j =>
    right
    simp only [Door.step] at happens
    split at happens
    case h_1 found =>
      split at happens
      all_goals cases happens
      all_goals exact Steps.moved found rfl (Steps.keeps (fun same => nomatch same) rfl) at_
    case h_2 => cases happens
  | fail j said =>
    right
    simp only [Door.step] at happens
    split at happens
    case h_1 found =>
      split at happens
      case h_4 => cases happens
      all_goals cases happens
      all_goals exact Steps.moved found rfl (Steps.keeps (fun same => nomatch same) rfl) at_
    case h_2 => cases happens
  | build j prepared reseal timestampMs wire =>
    right
    simp only [Door.step] at happens
    split at happens
    case h_1 conversationId signMessages expected plan found =>
      split at happens
      case isTrue =>
        cases happens
        rcases KeyMap.lookup_insert_some.mp at_ with ⟨rfl, rfl⟩ | ⟨away, before⟩
        · refine ⟨_, found, rfl, rfl, fun _ same => Or.inl same, Or.inr ?_⟩
          exact ⟨prepared, reseal, timestampMs, wire, plan.myAlias, plan.bound, rfl, rfl, rfl,
            AList.lookup_insert _⟩
        · refine ⟨new, before, Steps.stay new ?_⟩
          intro same
          exact away (Option.some.inj same).symm
      case isFalse => cases happens
    case h_2 => cases happens
  | stashIntent j | stashPlan j | abandonPlan j | abandonIntent j =>
    right
    simp only [Door.step] at happens
    split at happens
    case h_1 found =>
      obtain ⟨pending, _, rfl⟩ := Option.map_eq_some_iff.mp happens
      exact Steps.moved found rfl (Steps.keeps (fun same => nomatch same) rfl) at_
    case h_2 => cases happens
  | confine j =>
    right
    simp only [Door.step] at happens
    split at happens
    case h_1 found =>
      cases happens
      refine Steps.moved found rfl (Steps.keeps (fun same => nomatch same) ?_) at_
      generalize (match s.pending.plan with
        | some (stored, prepared) => _ && prepared.paysOnly addresses _
        | none => false) = confined
      cases confined <;> rfl
    case h_2 => cases happens
  | judge j commit =>
    right
    simp only [Door.step] at happens
    split at happens
    case h_1 found =>
      split at happens
      · cases happens
        exact Steps.moved found rfl (Steps.keeps (fun same => nomatch same) rfl) at_
      · split at happens
        · cases happens
        · obtain ⟨pending, _, rfl⟩ := Option.map_eq_some_iff.mp happens
          exact Steps.moved found rfl (Steps.keeps (fun same => nomatch same) rfl) at_
    case h_2 => cases happens
  | advance j outcome =>
    right
    simp only [Door.step] at happens
    split at happens
    case h_1 found => exact Steps.advanced found happens at_
    case h_2 => cases happens

omit [DecidableEq Address] in
theorem mem_move {j : ℕ} {call : Call Address} {stage : Stage Address} {pending : Pending (PreparedSend Script)}
    (inside : i ∈ s.calls) : i ∈ (s.move j call stage pending).calls :=
  (AList.mem_insert _).mpr (Or.inr inside)

omit [DecidableEq Address] in
theorem advance_moves {call : Call Address} {summary : SignableSummary} {commit j : ℕ} {outcome : SendOutcome}
    (happens : s.advance j call summary commit outcome = some next) :
    (∃ event, s.pending.step event = some next.pending) ∧ ∀ i, i ∈ s.calls → i ∈ next.calls := by
  unfold Door.advance at happens
  split at happens
  case h_1 => cases happens
  case h_4 =>
    obtain ⟨pending, did, rfl⟩ := Option.map_eq_some_iff.mp happens
    split
    all_goals exact ⟨⟨_, did⟩, fun _ => mem_move⟩
  all_goals
    obtain ⟨pending, did, rfl⟩ := Option.map_eq_some_iff.mp happens
    exact ⟨⟨_, did⟩, fun _ inside => (AList.mem_insert _).mpr (Or.inr inside)⟩

/-- A step moves the stashes by at most one of theirs, and no call leaves. -/
theorem step_moves (happens : s.step addresses event = some next) :
    (next.pending = s.pending ∨ ∃ event, s.pending.step event = some next.pending) ∧
      ∀ i, i ∈ s.calls → i ∈ next.calls := by
  cases event with
  | other event =>
    simp only [Door.step] at happens
    split at happens
    · cases happens
    · obtain ⟨pending, did, rfl⟩ := Option.map_eq_some_iff.mp happens
      exact ⟨Or.inr ⟨_, did⟩, fun _ inside => inside⟩
  | preference signMessages =>
    cases happens
    exact ⟨Or.inl rfl, fun _ inside => inside⟩
  | call j conversationId text =>
    simp only [Door.step] at happens
    split at happens
    · cases happens
    · cases happens
      exact ⟨Or.inl rfl, fun _ inside => (AList.mem_insert _).mpr (Or.inr inside)⟩
  | bind j | plan j | fail j said =>
    simp only [Door.step] at happens
    split at happens
    · split at happens
      all_goals cases happens
      all_goals exact ⟨Or.inl rfl, fun _ => mem_move⟩
    · cases happens
  | build j prepared reseal timestampMs wire =>
    simp only [Door.step] at happens
    split at happens
    · split at happens
      · obtain ⟨pending, did, rfl⟩ := Option.map_eq_some_iff.mp happens
        exact ⟨Or.inr ⟨_, did⟩, fun _ => mem_move⟩
      · cases happens
    · cases happens
  | stashIntent j | stashPlan j | abandonPlan j | abandonIntent j =>
    simp only [Door.step] at happens
    split at happens
    · obtain ⟨pending, did, rfl⟩ := Option.map_eq_some_iff.mp happens
      exact ⟨Or.inr ⟨_, did⟩, fun _ => mem_move⟩
    · cases happens
  | confine j =>
    simp only [Door.step] at happens
    split at happens
    · cases happens
      exact ⟨Or.inl rfl, fun _ => mem_move⟩
    · cases happens
  | judge j commit =>
    simp only [Door.step] at happens
    split at happens
    · split at happens
      · cases happens
        exact ⟨Or.inl rfl, fun _ => mem_move⟩
      · split at happens
        · cases happens
        · obtain ⟨pending, did, rfl⟩ := Option.map_eq_some_iff.mp happens
          exact ⟨Or.inr ⟨_, did⟩, fun _ => mem_move⟩
    · cases happens
  | advance j outcome =>
    simp only [Door.step] at happens
    split at happens
    · obtain ⟨did, kept⟩ := advance_moves happens
      exact ⟨Or.inr did, kept⟩
    · cases happens

theorem builder_mem (happens : s.step addresses event = some next) (builds : event.builder = some i) :
    i ∈ s.calls := by
  cases event with
  | build j prepared reseal timestampMs wire =>
    cases builds
    simp only [Door.step] at happens
    split at happens
    case h_1 found => exact KeyMap.mem_of_lookup found
    case h_2 => cases happens
  | _ => cases builds

def launch (signMessages : Bool) : Door Script Address := ⟨Pending.launch, signMessages, ∅, []⟩

theorem sound_launch (signMessages : Bool) : Door.Sound addresses (launch signMessages : Door Script Address) := by
  refine ⟨⟨?_, ?_, ?_, ?_⟩, ?_, ?_, ?_⟩
  · intro nonce content found
    cases found
  · intro nonce plan found
    cases found
  · intro nonce preparing found
    cases found
  · intro id call plan found
    cases found
  · intro i call found
    cases found
  · intro i j call other id found
    cases found
  · intro i b member
    cases member

end Door

/-- How many plans the call built along the events. -/
def builds (events : List (Event Script)) (i : ℕ) : ℕ := (events.filterMap Event.builder).count i

theorem builds_snoc (events : List (Event Script)) (event : Event Script) (i : ℕ) :
    builds (events ++ [event]) i = builds events i + if event.builder = some i then 1 else 0 := by
  unfold builds
  rw [List.filterMap_append, List.count_append]
  congr 1
  cases found : event.builder with
  | none => simp [found]
  | some j => simp [found, List.count_singleton]

variable (addresses) in
/-- What a call has read and built, it read and built along the run. -/
structure Traced (start : Door Script Address) (events : List (Event Script)) (s : Door Script Address) (i : ℕ)
    (call : Call Address) : Prop where
  asked : ∃ mid text, Machine.Passes (Door.step addresses) start events mid (.call i call.conversationId text) ∧
    mid.signMessages = call.signMessages
  bound : ∀ address, call.expected = some address → ∃ mid,
    Machine.Passes (Door.step addresses) start events mid (.bind i) ∧
      boundAddress addresses mid.pending.store call.conversationId = .ok address
  unbuilt : call.stage.nonce = none → builds events i = 0
  built : ∀ nonce, call.stage.nonce = some nonce → builds events i = 1 ∧
    ∃ mid prepared reseal timestampMs wire aliasOnWire sealedTo,
      Machine.Passes (Door.step addresses) start events mid (.build i prepared reseal timestampMs wire) ∧
        mid.pending.nonce = nonce ∧ s.pending.prepared.lookup nonce =
          some (prepared, .comm call.conversationId aliasOnWire reseal sealedTo timestampMs wire)

variable (addresses) in
/-- The broadcast is of the call's own small message: the call read that it need not ask and where the
    conversation was bound, built this plan once under this nonce, and every output of it pays that
    address. -/
structure Confined (start : Door Script Address) (events : List (Event Script)) (s : Door Script Address) (i : ℕ)
    (b : Broadcast (PreparedSend Script)) (conversationId : String) (address : Address) : Prop where
  unasked : ∃ mid text, Machine.Passes (Door.step addresses) start events mid (.call i conversationId text) ∧
    mid.signMessages = false
  bound : ∃ mid, Machine.Passes (Door.step addresses) start events mid (.bind i) ∧
    boundAddress addresses mid.pending.store conversationId = .ok address
  once : builds events i = 1
  prepared : ∃ mid reseal timestampMs wire,
    Machine.Passes (Door.step addresses) start events mid (.build i b.plan reseal timestampMs wire) ∧
      mid.pending.nonce = b.nonce
  comm : ∃ aliasOnWire reseal sealedTo timestampMs wire, s.pending.prepared.lookup b.nonce =
    some (b.plan, .comm conversationId aliasOnWire reseal sealedTo timestampMs wire)
  kind : ∀ intent, s.pending.prepared.lookup b.nonce = some (b.plan, intent) → kindOfIntent intent = .selfSendFrame
  pays : ∀ leg ∈ b.plan.pending, ∀ output ∈ leg.outputs,
    addresses.extract output.script (addresses.prefixOf address) = .ok address
  fee : (b.plan.pending.map Leg.fee).sum ≤ UNCEREMONIOUS_FEE_CEILING

variable (addresses) in
/-- A refused call built nothing, or no prepare stores what it built again and no commit from then on
    takes it. -/
def Spent (start : Door Script Address) (events : List (Event Script)) (s : Door Script Address) (i : ℕ) :
    Option ℕ → Prop
  | none => builds events i = 0
  | some nonce => builds events i = 1 ∧
      (∃ mid prepared reseal timestampMs wire,
        Machine.Passes (Door.step addresses) start events mid (.build i prepared reseal timestampMs wire) ∧
          mid.pending.nonce = nonce) ∧
      ∀ later after, Machine.run (Door.step addresses) s later = some after →
        nonce ∉ after.pending.prepares ∧ ∀ plan, (Pending.takeStashed after.pending.plan nonce).1 ≠ .ok plan

namespace Door

variable {start s next final : Door Script Address} {events : List (Event Script)} {event : Event Script} {i : ℕ}
  {old new : Call Address}

theorem later_of_step (sound : s.Sound addresses) (happens : s.step addresses event = some next) :
    s.pending.Later next.pending := by
  rcases (step_moves happens).1 with same | ⟨own, did⟩
  · rw [same]
    exact Pending.Later.refl _
  · exact (sound.issued.step did).2

theorem traced_steps (traced : Traced addresses start events s i old) (later : s.pending.Later next.pending)
    (reached : Machine.run (Door.step addresses) start events = some s)
    (moves : Steps addresses s next event i old new) : Traced addresses start (events ++ [event]) next i new := by
  refine ⟨?_, ?_, ?_, ?_⟩
  · obtain ⟨mid, text, passes, reads⟩ := traced.asked
    rw [moves.conversationId, moves.signMessages]
    exact ⟨mid, text, passes.snoc event, reads⟩
  · intro address holds
    rcases moves.expected address holds with before | ⟨rfl, reads⟩
    · obtain ⟨mid, passes, reads⟩ := traced.bound address before
      rw [moves.conversationId]
      exact ⟨mid, passes.snoc event, reads⟩
    · exact ⟨s, Machine.Passes.last reached _, reads⟩
  · intro unbuilt
    rcases moves.nonce with ⟨idle, same⟩ | ⟨_, _, _, _, _, _, _, _, built, _⟩
    · rw [builds_snoc, if_neg idle, traced.unbuilt (same ▸ unbuilt)]
    · rw [built] at unbuilt
      cases unbuilt
  · intro nonce holds
    rcases moves.nonce with ⟨idle, same⟩ | ⟨prepared, reseal, timestampMs, wire, _, _, rfl, fresh, built, stored⟩
    · obtain ⟨once, mid, prepared, reseal, timestampMs, wire, aliasOnWire, sealedTo, passes, at_, stored⟩ :=
        traced.built nonce (same ▸ holds)
      rw [builds_snoc, if_neg idle, once, moves.conversationId]
      exact ⟨rfl, mid, prepared, reseal, timestampMs, wire, aliasOnWire, sealedTo, passes.snoc event, at_,
        later.prepared _ _ stored⟩
    · rw [built] at holds
      cases holds
      have own : (Event.build i prepared reseal timestampMs wire).builder = some i := rfl
      rw [builds_snoc, if_pos own, traced.unbuilt fresh]
      exact ⟨rfl, s, prepared, reseal, timestampMs, wire, _, _, Machine.Passes.last reached _, rfl, stored⟩

variable (addresses) in
/-- What holds of a run of the door and of where it leads. -/
structure Kept (start : Door Script Address) (events : List (Event Script)) (s : Door Script Address) : Prop where
  sound : s.Sound addresses
  traced : ∀ i call, s.calls.lookup i = some call → Traced addresses start events s i call
  absent : ∀ i, i ∉ s.calls → builds events i = 0

theorem Kept.step (kept : Kept addresses start events s)
    (reached : Machine.run (Door.step addresses) start events = some s)
    (happens : s.step addresses event = some next) : Kept addresses start (events ++ [event]) next := by
  refine ⟨kept.sound.step happens, ?_, ?_⟩
  · intro i call found
    rcases steps happens found with ⟨fresh, ⟨text, rfl⟩, reads, unread, unbuilt⟩ | ⟨old, before, moves⟩
    · refine ⟨⟨s, text, Machine.Passes.last reached _, reads.symm⟩, ?_, ?_, ?_⟩
      · intro address holds
        rw [unread] at holds
        cases holds
      · intro _
        rw [builds_snoc, kept.absent i (AList.lookup_eq_none.mp fresh)]
        rfl
      · intro nonce holds
        rw [unbuilt] at holds
        cases holds
    · exact traced_steps (kept.traced i old before) (later_of_step kept.sound happens) reached moves
  · intro i absent
    have before : i ∉ s.calls := fun inside => absent ((step_moves happens).2 i inside)
    have idle : event.builder ≠ some i := fun isOf => before (builder_mem happens isOf)
    rw [builds_snoc, if_neg idle, kept.absent i before]

theorem kept_run {signMessages : Bool}
    (ran : Machine.run (Door.step addresses) (launch signMessages) events = some final) :
    Kept addresses (launch signMessages) events final := by
  refine Machine.run_history (p := Kept addresses (launch signMessages)) ?_ ?_ ran
  · refine ⟨sound_launch signMessages, ?_, fun _ _ => rfl⟩
    intro i call found
    cases found
  · intro first event mid next reached kept happens
    exact kept.step reached happens

theorem pays_only {prepared : PreparedSend Script} {owned : Address}
    (passes : prepared.paysOnly addresses owned = true)
    {leg : Leg Script} (inPlan : leg ∈ prepared.pending) {output : Output Script} (inLeg : output ∈ leg.outputs) :
    addresses.extract output.script (addresses.prefixOf owned) = .ok owned := by
  have own := List.all_eq_true.mp (List.all_eq_true.mp passes leg inPlan) output inLeg
  split at own
  case h_1 decoded decodes =>
    rw [decodes, of_decide_eq_true own]
  case h_2 => cases own

theorem unrefused {summary : SignableSummary} {expected : String} {signMessages : Bool}
    (passes : unceremoniousRefusal summary expected signMessages = none) :
    summary.feeSompi ≤ UNCEREMONIOUS_FEE_CEILING := by
  unfold unceremoniousRefusal at passes
  split at passes
  · cases passes
  · split at passes
    · cases passes
    · split at passes
      · cases passes
      · split at passes
        · cases passes
        case isFalse under => exact Nat.not_lt.mp under

theorem sent_confined (kept : Kept addresses start events final) {b : Broadcast (PreparedSend Script)}
    (sent : (i, b) ∈ final.sent) :
    ∃ conversationId address, Confined addresses start events final i b conversationId address := by
  obtain ⟨call, summary, outcome, found, returned, ofCall, intent, known⟩ := kept.sound.sent i b sent
  have traced := kept.traced i call found
  have holds := kept.sound.calls i call found
  unfold Call.Holds at holds
  rw [returned] at holds
  obtain ⟨address, plan, vetted⟩ := holds
  obtain ⟨aliasOnWire, reseal, sealedTo, timestampMs, wire, stored⟩ := vetted.prepared
  rw [← ofCall, known] at stored
  cases stored
  have nonce : call.stage.nonce = some b.nonce := by
    rw [returned, ofCall]
    rfl
  obtain ⟨once, mid, prepared, _, _, _, _, _, passes, at_, same⟩ := traced.built b.nonce nonce
  rw [known] at same
  cases same
  refine ⟨call.conversationId, address, ?_, traced.bound address vetted.reads, once,
    ⟨mid, _, _, _, passes, at_⟩, ⟨_, _, _, _, _, known⟩, ?_, ?_, ?_⟩
  · obtain ⟨mid, text, passes, reads⟩ := traced.asked
    exact ⟨mid, text, passes, reads.trans vetted.unasked⟩
  · intro intent same
    rw [known] at same
    cases same
    rfl
  · intro leg inPlan output inLeg
    exact pays_only vetted.confined inPlan inLeg
  · have fee : summary.feeSompi = b.plan.summary.feeSompi := by
      rw [vetted.shown]
      rfl
    rw [← b.plan.aggregate, ← fee]
    exact unrefused vetted.judged

theorem refused_gone (kept : Kept addresses start events final) {call : Call Address} {nonce : Option ℕ}
    {said : String} (found : final.calls.lookup i = some call) (refused : call.stage = .refused nonce said) :
    Spent addresses start events final i nonce := by
  have traced := kept.traced i call found
  cases nonce with
  | none =>
    apply traced.unbuilt
    rw [refused]
    rfl
  | some nonce =>
    have own : call.stage.nonce = some nonce := by
      rw [refused]
      rfl
    obtain ⟨once, mid, prepared, reseal, timestampMs, wire, _, _, passes, at_, _⟩ := traced.built nonce own
    refine ⟨once, ⟨mid, prepared, reseal, timestampMs, wire, passes, at_⟩, ?_⟩
    intro later after ran
    have holds := kept.sound.calls i call found
    unfold Call.Holds at holds
    rw [refused] at holds
    have keeps : ∀ (s : Door Script Address) event next, s.Sound addresses ∧ s.pending.Gone nonce →
        s.step addresses event = some next → next.Sound addresses ∧ next.pending.Gone nonce := by
      intro s event next holds happens
      exact ⟨holds.1.step happens, holds.2.later (later_of_step holds.1 happens)⟩
    have stays := Machine.run_invariant keeps ⟨kept.sound, holds nonce rfl⟩ ran
    refine ⟨stays.2.prepares, ?_⟩
    intro plan takes
    have stored := Pending.takeStashed_ok (Prod.ext takes rfl : Pending.takeStashed after.pending.plan nonce =
      (.ok plan, (Pending.takeStashed after.pending.plan nonce).2))
    exact stays.2.plan plan stored.1

/-- Whatever else prepares, abandons, commits or rebinds in between. -/
theorem comm_now_sends_its_own_message {signMessages : Bool}
    (ran : Machine.run (Door.step addresses) (launch signMessages) events = some final) :
    (∀ i b, (i, b) ∈ final.sent → ∃ conversationId address,
      Confined addresses (launch signMessages) events final i b conversationId address) ∧
    (∀ i call nonce said, final.calls.lookup i = some call → call.stage = .refused nonce said →
      Spent addresses (launch signMessages) events final i nonce) := by
  have kept := kept_run ran
  refine ⟨?_, ?_⟩
  · intro i b sent
    exact sent_confined kept sent
  · intro i call nonce said found refused
    exact refused_gone kept found refused

section Sample

def sampleAddresses : Addresses ℕ Unit ℕ where
  extract script _ := .ok script
  prefixOf _ := ()
  print address := if address = 4 then "own" else "another"
  walletAddressAt slot := .ok slot.2

theorem unfiled {T : Type} (keyOf : T → String) (key : String) (record : T)
    (found : (∅ : KeyMap String T).lookup key = some record) : keyOf record = key := by
  cases found

def sampleHub (boundIndex : ℕ) : Option TransportStore :=
  let none_ : Table ConversationRecord ConversationRecord.conversationId :=
    ⟨∅, ∅, unfiled ConversationRecord.conversationId⟩
  some ⟨none_.insert ⟨"conv", "kaspa:them", "a1", some "b2", .active, true, .receive, boundIndex, 1, 1, none⟩,
    ⟨∅, ∅, unfiled MessageRecord.txid⟩⟩

def samplePlan (owner : ℕ) : PreparedSend ℕ :=
  ⟨[⟨50, [⟨30, 4⟩, ⟨10, owner⟩]⟩, ⟨40, [⟨25, 4⟩]⟩], ⟨"own", 25⟩, rfl⟩

def sampleOutcome : SendOutcome := ⟨some "tx", 2, 2, false, none, false⟩

/-- The first call sends while another prepare takes the stashes, the conversation is rebound and the
    preference turns on; the second one finds the other prepare's plan stored and is refused. -/
def interleaved : List (Event ℕ) :=
  [.other (.hub (sampleHub 4)), .call 1 "conv" "hello", .call 2 "conv" "again", .bind 1, .bind 2, .plan 1,
    .plan 2, .build 1 (samplePlan 4) [] 7 .kChat, .other (.allot (samplePlan 6) .bcast), .stashIntent 1,
    .other (.storeIntent 2), .stashPlan 1, .confine 1, .judge 1 5, .preference true, .other (.hub (sampleHub 6)),
    .build 2 (samplePlan 4) [] 8 .kChat, .advance 1 sampleOutcome, .advance 1 sampleOutcome,
    .advance 1 sampleOutcome, .stashIntent 2, .stashPlan 2, .other (.storePlan 2), .confine 2, .abandonPlan 2,
    .abandonIntent 2]

/-- The call has been refused at the nonce of another prepare. -/
def refusedAtThree (s : Door ℕ ℕ) (i : ℕ) : Bool :=
  match s.calls.lookup i with
  | some ⟨_, _, _, .refused (some 3) _⟩ => true
  | _ => false

theorem comm_now_sends_its_own_message_interleaved :
    ∃ final, Machine.run (Door.step sampleAddresses) (launch false) interleaved = some final ∧
      (∃ b, (1, b) ∈ final.sent ∧ ∃ conversationId address,
        Confined sampleAddresses (launch false) interleaved final 1 b conversationId address) ∧
      Spent sampleAddresses (launch false) interleaved final 2 (some 3) := by
  have all : (Machine.run (Door.step sampleAddresses) (launch false) interleaved).any (fun s =>
      decide (s.sent.map Prod.fst = [1]) && refusedAtThree s 2) = true := by
    decide +kernel
  obtain ⟨final, ran, facts⟩ := (Option.any_eq_true _ _).mp all
  obtain ⟨sends, stands⟩ := (Bool.and_eq_true _ _).mp facts
  obtain ⟨confined, spent⟩ := comm_now_sends_its_own_message ran
  refine ⟨final, ran, ?_, ?_⟩
  · have listed : 1 ∈ final.sent.map Prod.fst := by
      rw [of_decide_eq_true sends]
      exact List.mem_singleton_self 1
    obtain ⟨⟨_, b⟩, member, rfl⟩ := List.mem_map.mp listed
    exact ⟨b, member, confined 1 b member⟩
  · unfold refusedAtThree at stands
    split at stands
    case h_1 found => exact spent 2 _ (some 3) _ found rfl
    case h_2 => cases stands

end Sample

end Door

end History

end CommNow

end Kaspaverse.Transport
