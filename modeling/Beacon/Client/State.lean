/-
  Beacon.Client.State — the state blob (`beacon_client::state`): what a device carries across
  a restart, and the bytes it is written as.

  The first byte is the version, the rest the state as JSON. Everything in it is written in
  one way only, so the bytes tell the state (`encode_inj`); reading JSON is not part of the
  repository, and `decode` takes it as a function.
-/

import Beacon.Canonical.Form
import Beacon.Canonical.Signing
import Beacon.Outbox.State
import Beacon.Roster.Receive
import Beacon.Session.Store
import Beacon.Transport.Agent
import Mathlib.Tactic.MkIffOfInductiveProp

namespace Beacon

open Lib Json

/-! ## How the layers' snapshots are written -/

def DeviceState.form : Form DeviceState := Form.string.through asStr fun {a b} h => by
  cases a <;> cases b <;> first | rfl | exact absurd h (by decide)

def RemovalReason.form : Form RemovalReason := Form.string.through asStr fun h => RemovalReason.asStr_inj h

def DeviceRecord.form : Form DeviceRecord := .record
  [⟨"device_id", deviceId, .string⟩, ⟨"identity_pk", identityPk, .string⟩, ⟨"display_name", displayName, .string⟩,
   ⟨"member_group", memberGroup, .string⟩, ⟨"role", role, .string⟩, ⟨"joined_at", joinedAt, .string⟩,
   ⟨"introduced_by", introducedBy, .string⟩, ⟨"state", DeviceRecord.state, DeviceState.form⟩] fun {a b} h => by
  cases a; cases b; simpa using h

def Tombstone.form : Form Tombstone := .record
  [⟨"subject", subject, .string⟩, ⟨"reason", reason, RemovalReason.form⟩, ⟨"removed_at", removedAt, .string⟩,
   ⟨"removed_by", removedBy, .string⟩, ⟨"epoch", epoch, .u64⟩] fun {a b} h => by
  cases a; cases b; simpa using h

def ChurnLog.form : Form ChurnLog := .record [⟨"events", events, .map (.list .i64)⟩] fun {a b} h => by
  cases a; cases b; simpa using h

def VouchedSubject.form : Form VouchedSubject := .record
  [⟨"device_id", deviceId, .string⟩, ⟨"identity_pk", identityPk, .string⟩, ⟨"display_name", displayName, .string⟩,
   ⟨"member_group", memberGroup, .string⟩, ⟨"role", role, .string⟩, ⟨"joined_at", joinedAt, .string⟩] fun {a b} h => by
  cases a; cases b; simpa using h

def RosterIntroduce.form : Form RosterIntroduce := .record
  [⟨"subject", subject, VouchedSubject.form⟩, ⟨"epoch", epoch, .u64⟩, ⟨"vouch", vouch, .string⟩] fun {a b} h => by
  cases a; cases b; simpa using h

def HeldAdmission.form : Form HeldAdmission := .record
  [⟨"message", message, RosterIntroduce.form⟩, ⟨"introducer", introducer, .string⟩,
   ⟨"events_in_window", eventsInWindow, .nat 64 (by decide)⟩] fun {a b} h => by
  cases a; cases b; simpa using h

def RosterSnapshot.form : Form RosterSnapshot := .record
  [⟨"v", v, .u8⟩, ⟨"self_id", selfId, .string⟩, ⟨"devices", devices, .list DeviceRecord.form⟩,
   ⟨"tombstones", tombstones, .list Tombstone.form⟩, ⟨"epoch", epoch, .u64⟩, ⟨"churn", churn, ChurnLog.form⟩,
   ⟨"held", held, .list HeldAdmission.form⟩, ⟨"removed_me", removedMe, .list .string⟩] fun {a b} h => by
  cases a; cases b; simpa using h

def StoredPeer.form : Form StoredPeer := .record
  [⟨"device_id", deviceId, .string⟩, ⟨"identity_pk", identityPk, .string⟩, ⟨"curve25519", curve25519, .string⟩,
   ⟨"fallback_key", fallbackKey, .string⟩, ⟨"fallback_key_id", fallbackKeyId, .string⟩,
   ⟨"session", session, .option .string fun _ h => nomatch h⟩] fun {a b} h => by
  cases a; cases b; simpa using h

def SessionStore.form : Form SessionStore := .record
  [⟨"v", v, .u8⟩, ⟨"device_id", deviceId, .string⟩, ⟨"identity_pk", identityPk, .string⟩,
   ⟨"account", account, .string⟩, ⟨"peers", peers, .list StoredPeer.form⟩] fun {a b} h => by
  cases a; cases b; simpa using h

def QueueIds.form : Form QueueIds := .record
  [⟨"recipient_id", recipientId, .string⟩, ⟨"sender_id", senderId, .string⟩] fun {a b} h => by
  cases a; cases b; simpa using h

def OutboundQueue.form : Form OutboundQueue := .record
  [⟨"sender_id", senderId, .string⟩, ⟨"sender_seed", senderSeed, .seed⟩, ⟨"bound", bound, .bool⟩] fun {a b} h => by
  cases a; cases b; simpa using h

def ChannelRecord.form : Form ChannelRecord := .record
  [⟨"channel", channel, .string⟩, ⟨"recipient_seed", recipientSeed, .seed⟩,
   ⟨"inbound", inbound, .option QueueIds.form fun _ h => nomatch h⟩,
   ⟨"outbound", outbound, .option OutboundQueue.form fun _ h => nomatch h⟩,
   ⟨"retired", retired, .bool⟩] fun {a b} h => by
  cases a; cases b; simpa using h

def optionalU64 : Form (Option Nat) := .option (.nat 64 (by decide)) fun _ h => nomatch h

def Entry.form : Form Entry := .record
  [⟨"id", id, .nat 64 (by decide)⟩, ⟨"channel", channel, .string⟩, ⟨"peer", peer, .string⟩,
   ⟨"plaintext", plaintext, .bytes⟩, ⟨"high_priority", highPriority, .bool⟩, ⟨"ttl_secs", ttlSecs, optionalU64⟩,
   ⟨"expires_at_secs", expiresAtSecs, optionalU64⟩,
   ⟨"coalesce_key", coalesceKey, .option .string fun _ h => nomatch h⟩,
   ⟨"enqueued_at_secs", enqueuedAtSecs, .nat 64 (by decide)⟩, ⟨"attempts", attempts, .nat 32 (by decide)⟩,
   ⟨"not_before_secs", notBeforeSecs, .nat 64 (by decide)⟩] fun {a b} h => by
  cases a; cases b; simpa using h

def OutboxSnapshot.form : Form OutboxSnapshot := .record
  [⟨"v", v, .u8⟩, ⟨"next_id", fun s => s.outbox.nextId, .nat 64 (by decide)⟩,
   ⟨"entries", fun s => s.outbox.entries, .list Entry.form⟩] fun {a b} h => by
  obtain ⟨v, entries, nextId, _, _⟩ := a
  obtain ⟨v', entries', nextId', _, _⟩ := b
  simp only [List.mem_cons, List.not_mem_nil, or_false, forall_eq_or_imp, forall_eq] at h
  obtain ⟨rfl, rfl, rfl⟩ := h
  rfl

/-! ## Numbers in range -/

/-- The numbers of an entry are what its integer types can hold. -/
@[mk_iff] structure Entry.InRange (e : Entry) : Prop where
  id : e.id < 2 ^ 64
  ttl : ∀ secs ∈ e.ttlSecs, secs < 2 ^ 64
  expires : ∀ secs ∈ e.expiresAtSecs, secs < 2 ^ 64
  enqueued : e.enqueuedAtSecs < 2 ^ 64
  attempts : e.attempts < 2 ^ 32
  notBefore : e.notBeforeSecs < 2 ^ 64

theorem Entry.fits_iff (e : Entry) : Entry.form.Fits e ↔ e.InRange := by
  simp only [Entry.form, optionalU64, Form.fits_record, List.mem_cons, forall_eq_or_imp, Form.fits_nat, Form.fits_string,
    Form.fits_bytes, Form.fits_bool, Form.fits_option, List.not_mem_nil, false_implies, implies_true, and_true, true_and]
  exact e.inRange_iff.symm

instance (e : Entry) : Decidable e.InRange := decidable_of_iff' _ e.inRange_iff

/-! ## The blob -/

/-- `STATE_VERSION`. -/
def stateVersion : UInt8 := 1

structure ClientState where
  deviceId : String
  accountId : String
  server : String
  roster : RosterSnapshot
  sessions : SessionStore
  channels : List ChannelRecord
  outbox : OutboxSnapshot

namespace ClientState

def form : Form ClientState := .record
  [⟨"device_id", deviceId, .string⟩, ⟨"account_id", accountId, .string⟩, ⟨"server", server, .string⟩,
   ⟨"roster", roster, RosterSnapshot.form⟩, ⟨"sessions", sessions, SessionStore.form⟩,
   ⟨"channels", channels, .list ChannelRecord.form⟩, ⟨"outbox", outbox, OutboxSnapshot.form⟩] fun {a b} h => by
  cases a; cases b; simpa using h

/-- The numbers of a state are what its integer types can hold. -/
@[mk_iff] structure InRange (state : ClientState) : Prop where
  held : ∀ h ∈ state.roster.held, h.eventsInWindow < 2 ^ 64
  nextId : state.outbox.outbox.nextId < 2 ^ 64
  entries : ∀ e ∈ state.outbox.outbox.entries, e.InRange

instance (state : ClientState) : Decidable state.InRange := decidable_of_iff' _ state.inRange_iff

theorem fits_iff (state : ClientState) : form.Fits state ↔ state.InRange := by
  simp only [form, RosterSnapshot.form, DeviceRecord.form, DeviceState.form, Tombstone.form, RemovalReason.form,
    ChurnLog.form, HeldAdmission.form, RosterIntroduce.form, VouchedSubject.form, SessionStore.form, StoredPeer.form,
    ChannelRecord.form, QueueIds.form, OutboundQueue.form, OutboxSnapshot.form, Form.fits_record, Form.fits_list,
    Form.fits_option, Form.fits_map, Form.fits_through, Form.fits_string, Form.fits_bool, Form.fits_u64, Form.fits_i64,
    Form.fits_u8, Form.fits_seed, Form.fits_nat, Entry.fits_iff, List.mem_cons, forall_eq_or_imp, List.not_mem_nil, false_implies,
    implies_true, and_true, true_and]
  exact state.inRange_iff.symm

/-- `state::encode`. -/
def encode (state : ClientState) : Bytes := stateVersion :: form.text state

/-- `state::decode`; `fromSlice` is `serde_json::from_slice`. -/
def decode (fromSlice : Bytes → Except String ClientState) : Bytes → Except AppError ClientState
  | [] => .error (.state "the stored state is empty")
  | version :: body =>
    if version ≠ stateVersion then
      .error (.state ("stored state is version " ++ toString version ++ ", and this build speaks " ++
        toString stateVersion))
    else (fromSlice body).mapError .state

/-- What is read back is what was written. -/
structure Reads (fromSlice : Bytes → Except String ClientState) : Prop where
  written : ∀ state, form.Fits state → fromSlice (form.text state) = .ok state

theorem reads_reader : Reads form.reader := ⟨fun _ h => form.reader_text h⟩

theorem encode_inj {state state' : ClientState} (h : form.Fits state) (h' : form.Fits state')
    (heq : state.encode = state'.encode) : state = state' := form.text_inj h h' (List.cons.inj heq).2

theorem decode_encode {fromSlice : Bytes → Except String ClientState} (hread : Reads fromSlice) {state : ClientState}
    (h : form.Fits state) : decode fromSlice state.encode = .ok state := by
  rw [encode, decode, if_neg (by decide), hread.written state h]
  rfl

end ClientState

end Beacon
