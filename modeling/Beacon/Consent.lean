/-
  Beacon.Consent — the consent state machine (`beacon_protocol::consent`): what a device may
  emit to a peer, decided at the device that would emit it.

  Two sets. `issued` is what this device's own user lets a peer see; `advertised` is what a
  peer lets this device do, and only `attention` asks it. A history is the calls made on a
  fresh state, and each returns the entry its caller ledgers.
  - `issued_run` / `advertised_run`: each set is turned by its own calls and by no other.
  - `maySend_run`: an emission of a known type is allowed exactly when the decision it
    waits for was last a grant.
  - `maySend_congr`: no decision but that one has a say, not even in the reason.
-/

import Beacon.Lib.Latest
import Beacon.Wire

namespace Beacon

open Lib.Trace Lib.Latest

inductive Feature where
  | location
  | battery
  | geofence
  | attention
  | receipts
  | unknown (name : String)
  deriving DecidableEq, Repr

/-- The v1 registry, and the types this build does not know. -/
inductive MessageType where
  | location
  | battery
  | sos
  | sosClear
  | attention
  | geofenceEvent
  | consentUpdate
  | configUpdate
  | memberInfo
  | rosterIntroduce
  | rosterRemove
  | rosterSync
  | channelOffer
  | receipt
  | unknown (wireType : String)
  deriving DecidableEq, Repr

def MessageType.isKnown : MessageType → Bool
  | .unknown _ => false
  | _ => true

inductive Emission where
  | message (messageType : MessageType)
  /-- A receipt is gated by what it is a receipt for. -/
  | receiptFor (subject : MessageType)
  deriving DecidableEq, Repr

inductive DenyReason where
  | noGrant (feature : Feature)
  | noInboundAllow (feature : Feature)
  | unknownType (wireType : String)
  deriving DecidableEq, Repr

inductive SendDecision where
  | allow
  | deny (reason : DenyReason)
  deriving DecidableEq, Repr

def SendDecision.isAllowed : SendDecision → Bool
  | .allow => true
  | .deny _ => false

/-- The ledger's consent events. -/
inductive ConsentEvent where
  | consentChanged (feature : Feature) (granted : Bool)
  | peerAdvertisedConsent (feature : Feature) (granted : Bool)
  deriving DecidableEq, Repr

structure ConsentState where
  issued : Finset (Feature × String)
  advertised : Finset (Feature × String)
  deriving DecidableEq

namespace ConsentState

def new : ConsentState := ⟨∅, ∅⟩

def grant (s : ConsentState) (feature : Feature) (peer : String) : ConsentState × EventEntry ConsentEvent :=
  ({ s with issued := insert (feature, peer) s.issued },
    EventEntry.localDecision peer (.consentChanged feature true))

def revoke (s : ConsentState) (feature : Feature) (peer : String) : ConsentState × EventEntry ConsentEvent :=
  ({ s with issued := s.issued.erase (feature, peer) },
    EventEntry.localDecision peer (.consentChanged feature false))

def recordPeerAdvertisement (s : ConsentState) (feature : Feature) (peer : String) (granted : Bool) :
    ConsentState × EventEntry ConsentEvent :=
  let key := (feature, peer)
  ({ s with advertised := if granted then insert key s.advertised else s.advertised.erase key },
    EventEntry.inbound peer none (.peerAdvertisedConsent feature granted))

def hasGranted (s : ConsentState) (feature : Feature) (peer : String) : Bool := decide ((feature, peer) ∈ s.issued)

def peerAllows (s : ConsentState) (feature : Feature) (peer : String) : Bool :=
  decide ((feature, peer) ∈ s.advertised)

def requireGrant (s : ConsentState) (feature : Feature) (peer : String) : SendDecision :=
  if s.hasGranted feature peer then .allow else .deny (.noGrant feature)

def maySendMessage (s : ConsentState) (messageType : MessageType) (peer : String) : SendDecision :=
  match messageType with
  | .sos | .sosClear | .memberInfo | .consentUpdate | .configUpdate | .rosterIntroduce | .rosterRemove
  | .rosterSync | .channelOffer => .allow
  | .location => s.requireGrant .location peer
  | .battery => s.requireGrant .battery peer
  | .geofenceEvent => s.requireGrant .geofence peer
  -- the inverted one: the recipient holds the allow
  | .attention => if s.peerAllows .attention peer then .allow else .deny (.noInboundAllow .attention)
  | .receipt => s.requireGrant .receipts peer
  | .unknown wireType => .deny (.unknownType wireType)

def maySend (s : ConsentState) (emission : Emission) (peer : String) : SendDecision :=
  match emission with
  | .message messageType => s.maySendMessage messageType peer
  | .receiptFor subject =>
    match subject with
    | .sos | .sosClear | .attention | .consentUpdate => .allow
    | _ => s.requireGrant .receipts peer

/-- A call that changes the state. -/
inductive Call where
  | grant (feature : Feature) (peer : String)
  | revoke (feature : Feature) (peer : String)
  | recordPeerAdvertisement (feature : Feature) (peer : String) (granted : Bool)
  deriving DecidableEq, Repr

def perform (s : ConsentState) : Call → ConsentState × EventEntry ConsentEvent
  | .grant feature peer => s.grant feature peer
  | .revoke feature peer => s.revoke feature peer
  | .recordPeerAdvertisement feature peer granted => s.recordPeerAdvertisement feature peer granted

/-- The state a history leaves. -/
def after (history : List Call) : ConsentState := run (fun s call => (s.perform call).1) new history

/-! ## Decisions -/

namespace Call

/-- What the device's own user decides by the call, if it is the user's. -/
def decided : Call → Option ((Feature × String) × Bool)
  | .grant feature peer => some ((feature, peer), true)
  | .revoke feature peer => some ((feature, peer), false)
  | .recordPeerAdvertisement .. => none

/-- What the peer says it decided, if the call records that. -/
def advertised : Call → Option ((Feature × String) × Bool)
  | .recordPeerAdvertisement feature peer granted => some ((feature, peer), granted)
  | .grant .. | .revoke .. => none

def feature : Call → Feature
  | .grant feature _ | .revoke feature _ | .recordPeerAdvertisement feature _ _ => feature

def peer : Call → String
  | .grant _ peer | .revoke _ peer | .recordPeerAdvertisement _ peer _ => peer

end Call

/-- The last of the user's decisions for a feature and a peer: granted or revoked. -/
def lastDecided (history : List Call) (feature : Feature) (peer : String) : Option Bool :=
  latest (history.filterMap Call.decided) (feature, peer)

/-- The last of a peer's advertisements of a feature. -/
def lastAdvertised (history : List Call) (feature : Feature) (peer : String) : Option Bool :=
  latest (history.filterMap Call.advertised) (feature, peer)

/-- The calls about a feature and a peer. -/
def about (history : List Call) (feature : Feature) (peer : String) : List Call :=
  history.filter fun call => call.feature = feature ∧ call.peer = peer

/-- The entry of a call tells it from every other. -/
theorem perform_entry_inj {s s' : ConsentState} {call call' : Call} (h : (s.perform call).2 = (s'.perform call').2) :
    call = call' := by
  cases call <;> cases call' <;> simp_all [perform, grant, revoke, recordPeerAdvertisement,
    EventEntry.inbound, EventEntry.localDecision]

theorem issued_perform (s : ConsentState) (call : Call) :
    (s.perform call).1.issued = (call.decided.map (turn s.issued)).getD s.issued := by
  cases call <;> rfl

theorem advertised_perform (s : ConsentState) (call : Call) :
    (s.perform call).1.advertised = (call.advertised.map (turn s.advertised)).getD s.advertised := by
  cases call <;> rfl

theorem issued_after (history : List Call) : (after history).issued = run turn ∅ (history.filterMap Call.decided) :=
  run_selected issued_perform new history

theorem advertised_after (history : List Call) :
    (after history).advertised = run turn ∅ (history.filterMap Call.advertised) :=
  run_selected advertised_perform new history

theorem hasGranted_after (history : List Call) (feature : Feature) (peer : String) :
    (after history).hasGranted feature peer = true ↔ lastDecided history feature peer = some true := by
  rw [hasGranted, decide_eq_true_iff, issued_after, mem_turned_iff]
  rfl

theorem peerAllows_after (history : List Call) (feature : Feature) (peer : String) :
    (after history).peerAllows feature peer = true ↔ lastAdvertised history feature peer = some true := by
  rw [peerAllows, decide_eq_true_iff, advertised_after, mem_turned_iff]
  rfl

/-! ## What an emission waits for -/

/-- The messages that carry what a device's user shares, each with its feature. -/
def dataFeature : MessageType → Option Feature
  | .location => some .location
  | .battery => some .battery
  | .geofenceEvent => some .geofence
  | _ => none

/-- The types that flow without a grant. -/
def ungated : List MessageType :=
  [.sos, .sosClear, .memberInfo, .consentUpdate, .configUpdate, .rosterIntroduce, .rosterRemove, .rosterSync,
    .channelOffer]

/-- The types whose sender needs to know what happened. -/
def receiptMandatory : List MessageType := [.sos, .sosClear, .attention, .consentUpdate]

/-- The feature an emission waits for a decision on. -/
def feature : Emission → Option Feature
  | .message .attention => some .attention
  | .message .receipt => some .receipts
  | .message messageType => dataFeature messageType
  | .receiptFor subject => if subject ∈ receiptMandatory then none else some .receipts

@[simp] theorem isAllowed_requireGrant (s : ConsentState) (feature : Feature) (peer : String) :
    (s.requireGrant feature peer).isAllowed = s.hasGranted feature peer := by
  unfold requireGrant
  split
  · rename_i h
    rw [h]
    rfl
  · rename_i h
    rw [Bool.not_eq_true] at h
    rw [h]
    rfl

theorem maySend_receiptFor (s : ConsentState) (subject : MessageType) (peer : String) :
    s.maySend (.receiptFor subject) peer =
      if subject ∈ receiptMandatory then .allow else s.requireGrant .receipts peer := by
  cases subject <;> simp [maySend, receiptMandatory]

theorem maySend_data {messageType : MessageType} {feature : Feature} (h : dataFeature messageType = some feature)
    (s : ConsentState) (peer : String) : s.maySend (.message messageType) peer = s.requireGrant feature peer := by
  cases messageType <;> simp only [dataFeature, Option.some.injEq, reduceCtorEq] at h <;> subst h <;> rfl

theorem maySend_ungated {messageType : MessageType} (h : messageType ∈ ungated) (s : ConsentState) (peer : String) :
    s.maySend (.message messageType) peer = .allow := by
  cases messageType <;> simp [ungated] at h <;> rfl

theorem maySend_attention (s : ConsentState) (peer : String) :
    (s.maySend (.message .attention) peer).isAllowed = s.peerAllows .attention peer := by
  simp only [maySend, maySendMessage]
  split
  · rename_i h
    rw [h]
    rfl
  · rename_i h
    rw [Bool.not_eq_true] at h
    rw [h]
    rfl

/-- Every emission but the inverted one asks only what the user issued. -/
theorem maySend_of_issued {s s' : ConsentState} {emission : Emission} {peer : String}
    (hother : emission ≠ .message .attention)
    (h : ∀ f, feature emission = some f → s.hasGranted f peer = s'.hasGranted f peer) :
    s.maySend emission peer = s'.maySend emission peer := by
  cases emission with
  | receiptFor subject =>
    rw [maySend_receiptFor, maySend_receiptFor]
    by_cases hmandatory : subject ∈ receiptMandatory
    · rw [if_pos hmandatory, if_pos hmandatory]
    · rw [if_neg hmandatory, if_neg hmandatory, requireGrant, requireGrant,
        h .receipts (by rw [feature, if_neg hmandatory])]
  | message messageType =>
    cases messageType with
    | attention => exact absurd rfl hother
    | location | battery | geofenceEvent | receipt =>
      simp only [maySend, maySendMessage, requireGrant]
      rw [h _ rfl]
    | _ => rfl

/-- The calls about other peers and other features say nothing here. -/
theorem latest_about {decides : Call → Option ((Feature × String) × Bool)}
    (hdecides : ∀ call decision, decides call = some decision → decision.1 = (call.feature, call.peer))
    {history history' : List Call} {feature : Feature} {peer : String}
    (h : about history feature peer = about history' feature peer) :
    latest (history.filterMap decides) (feature, peer) = latest (history'.filterMap decides) (feature, peer) := by
  have hkey : ∀ calls : List Call, (calls.filterMap decides).filter (fun decision => decision.1 = (feature, peer)) =
      (about calls feature peer).filterMap decides := by
    intro calls
    rw [about, List.filter_filterMap, List.filterMap_filter]
    congr 1
    funext call
    cases hcall : decides call with
    | none => simp
    | some decision => simp [Option.filter_some, hdecides call decision hcall]
  apply latest_of_filter
  rw [hkey, hkey, h]

theorem decided_key (call : Call) (decision : (Feature × String) × Bool) (h : call.decided = some decision) :
    decision.1 = (call.feature, call.peer) := by
  cases call <;> cases h
  all_goals rfl

theorem advertised_key (call : Call) (decision : (Feature × String) × Bool) (h : call.advertised = some decision) :
    decision.1 = (call.feature, call.peer) := by
  cases call <;> cases h
  rfl

/-- Histories that say the same last of a feature and a peer leave the same grant. -/
theorem hasGranted_congr {history history' : List Call} {feature : Feature} {peer : String}
    (h : lastDecided history feature peer = lastDecided history' feature peer) :
    (after history).hasGranted feature peer = (after history').hasGranted feature peer := by
  rw [Bool.eq_iff_iff, hasGranted_after, hasGranted_after, h]

/-- Histories that agree about what the emission waits for decide it alike. -/
theorem maySend_of_about {history history' : List Call} {emission : Emission} {peer : String}
    (h : ∀ f, feature emission = some f → about history f peer = about history' f peer) :
    (after history).maySend emission peer = (after history').maySend emission peer := by
  by_cases hinverted : emission = .message .attention
  · subst hinverted
    have hlast : lastAdvertised history .attention peer = lastAdvertised history' .attention peer :=
      latest_about advertised_key (h .attention rfl)
    have hallows : (after history).peerAllows .attention peer = (after history').peerAllows .attention peer := by
      rw [Bool.eq_iff_iff, peerAllows_after, peerAllows_after, hlast]
    simp only [maySend, maySendMessage]
    rw [hallows]
  · exact maySend_of_issued hinverted fun f hf => hasGranted_congr (latest_about decided_key (h f hf))

theorem consent_follows_latest_decision (history : List Call) (peer : String) :
    (∀ messageType feature, dataFeature messageType = some feature →
      (((after history).maySend (.message messageType) peer).isAllowed = true ↔
        lastDecided history feature peer = some true)) ∧
    (∀ subject, subject.isKnown = true → subject ∉ receiptMandatory →
      (((after history).maySend (.receiptFor subject) peer).isAllowed = true ↔
        lastDecided history .receipts peer = some true)) ∧
    (((after history).maySend (.message .receipt) peer).isAllowed = true ↔
      lastDecided history .receipts peer = some true) ∧
    (((after history).maySend (.message .attention) peer).isAllowed = true ↔
      lastAdvertised history .attention peer = some true) ∧
    (∀ messageType ∈ ungated, ((after history).maySend (.message messageType) peer).isAllowed = true) ∧
    (∀ subject ∈ receiptMandatory, ((after history).maySend (.receiptFor subject) peer).isAllowed = true) ∧
    (∀ history' emission, history.filterMap Call.decided = history'.filterMap Call.decided →
      emission ≠ .message .attention → (after history).maySend emission peer = (after history').maySend emission peer) ∧
    (∀ history' emission, (∀ f, feature emission = some f → about history f peer = about history' f peer) →
      (after history).maySend emission peer = (after history').maySend emission peer) := by
  refine ⟨?_, ?_, ?_, ?_, ?_, ?_, ?_, ?_⟩
  · intro messageType feature hfeature
    rw [maySend_data hfeature, isAllowed_requireGrant, hasGranted_after]
  · intro subject _ hoptional
    rw [maySend_receiptFor, if_neg hoptional, isAllowed_requireGrant, hasGranted_after]
  · rw [maySend, maySendMessage, isAllowed_requireGrant, hasGranted_after]
  · rw [maySend_attention, peerAllows_after]
  · intro messageType hungated
    rw [maySend_ungated hungated]
    rfl
  · intro subject hmandatory
    rw [maySend_receiptFor, if_pos hmandatory]
    rfl
  · intro history' emission hsame hother
    refine maySend_of_issued hother fun f _ => hasGranted_congr ?_
    rw [lastDecided, hsame]
    rfl
  · intro history' emission hsame
    exact maySend_of_about hsame

end ConsentState

end Beacon
