import Mathlib.Data.List.Forall2
import Mathlib.Logic.Function.Basic
import SealedRecords.Proofs.RecordCipher.Disclosure
import SealedRecords.Proofs.Serde.Calls

/-!
# Runs that differ in secrets

A program encrypts, puts payloads into envelopes and writes the two sides of
records, as often and in whichever order it likes. `Desk` is all that these calls
share: the account with its log and its tape, the slots, and the headers of each
record. Two such programs are run on one desk. `Call.Alike` lets them differ in
the bytes of payloads and of keys, and in nothing else.

> `Call.perform_alike`: one call of each leaves the same desk, and the answers
> differ in nothing that is not ciphertext.

> `Desk.run_alike`: so does a run of each, call by call.

The induction needs no more than that the desks are equal: whatever a later call
looks at, a slot, a header or the tape, was left there by earlier ones.
-/

namespace SealedRecords

/-- The outcome with its values, errors and state put in other terms. -/
def carry (give : α → β) (wrap : ε → δ) (leave : σ → τ) : Except ε α × σ → Except δ β × τ
  | (.ok x, s) => (.ok (give x), leave s)
  | (.error e, s) => (.error (wrap e), leave s)

namespace SameOutcome

variable {ε δ α β σ τ : Type} {R : α → α → Prop} {S : β → β → Prop} {x y : Except ε α × σ}

theorem carry (h : SameOutcome R x y) {give : α → β} (hgive : ∀ {a b}, R a b → S (give a) (give b))
    (wrap : ε → δ) (leave : σ → τ) :
    SameOutcome S (SealedRecords.carry give wrap leave x)
      (SealedRecords.carry give wrap leave y) := by
  cases h with
  | failed e s => exact .failed _ _
  | given h s => exact .given (hgive h) _

theorem refl (h : ∀ a, R a a) (x : Except ε α × σ) : SameOutcome R x x := by
  obtain ⟨e | a, s⟩ := x
  · exact .failed e s
  · exact .given (h a) s

theorem state_eq (h : SameOutcome R x y) : x.2 = y.2 := by
  cases h with
  | failed e s => rfl
  | given h s => rfl

end SameOutcome

/-! ## One value -/

namespace Serializer

variable {p p' : KeyProvider} {data data' : Bytes} {value value' : Option Bytes}

theorem exec_bytes (thread : Thread) (topic : String) (value : Option Bytes) (s : Exchange) :
    (Codec.bytes.serde.serializer thread topic value).exec s = (.ok value, s) := by
  cases value with
  | none => rfl
  | some b => rfl

theorem sealPayload_alike (hp : p.Alike p') (hdata : data.length = data'.length) (aad : Bytes)
    (topic : String) (ref : Option KeyRef) (s : Exchange) :
    SameOutcome (Option.Rel (RecordCipher.disclosure ref).Agree)
      ((sealPayload ⟨p, Gcm.cipher aad⟩ topic ref data).exec s)
      ((sealPayload ⟨p', Gcm.cipher aad⟩ topic ref data').exec s) := by
  have hresult := RecordCipher.encode_alike hp hdata aad ref s.activity
  rw [exec_sealPayload, exec_sealPayload]
  generalize (RecordCipher.encode ⟨p, Gcm.cipher aad⟩ ref data).exec s.activity = x at hresult ⊢
  generalize (RecordCipher.encode ⟨p', Gcm.cipher aad⟩ ref data').exec s.activity = x' at hresult ⊢
  cases hresult with
  | failed e a =>
    cases e with
    | crypto e => exact .given .none _
    | envelope e => exact .failed _ _
  | given h a => exact .given (.some h) _

/-- A value side that writes bytes as they are discloses of a value what the envelope does, and
whether there is one. -/
theorem sealing_alike (hp : p.Alike p') (hvalue : value.map List.length = value'.map List.length)
    (aad : Bytes) (channel : Pairing) (thread : Thread) (topic : String) (s : Exchange) :
    SameOutcome (Option.Rel (RecordCipher.disclosure (s.reference channel thread)).Agree)
      ((sealing ⟨p, Gcm.cipher aad⟩ channel Codec.bytes.serde.serializer thread topic value).exec s)
      ((sealing ⟨p', Gcm.cipher aad⟩ channel Codec.bytes.serde.serializer thread topic value').exec
        s) := by
  rw [exec_sealing, exec_sealing, exec_bytes, exec_bytes]
  cases value with
  | none =>
    obtain rfl : value' = none := Option.map_eq_none_iff.mp hvalue.symm
    exact .given .none _
  | some data =>
    obtain ⟨data', rfl, hdata⟩ := Option.map_eq_some_iff.mp hvalue.symm
    have href : (channel.map fun c => s.slots.peek thread c).getD
        (s.taken channel thread).headers.keyRef? = s.reference channel thread := by
      cases channel with
      | none => rfl
      | some c => rfl
    simp only [href]
    exact sealPayload_alike hp hdata.symm aad topic _ _

end Serializer

namespace Program

/-! ## Calls -/

/-- What the calls of a program share. -/
structure Desk where
  activity : Activity
  slots : Slots := {}
  /-- The headers of each record. -/
  headers : Nat → Headers := fun _ => {}

namespace Desk

/-- What a call finds that works on a record. -/
def exchange (d : Desk) (record : Nat) : Exchange := ⟨d.activity, d.slots, d.headers record⟩

/-- The desk after a call that works on a record. -/
def leave (d : Desk) (record : Nat) (s : Exchange) : Desk :=
  ⟨s.activity, s.slots, Function.update d.headers record s.headers⟩

/-- The desk after a call that keeps the account only. -/
def account (d : Desk) (a : Activity) : Desk := { d with activity := a }

end Desk

/-- Why a call failed. -/
inductive Failure where
  | crypto (cause : CryptoError)
  | sealing (cause : SealingError)
  | serde (cause : SerdeError)
  deriving DecidableEq, Repr

/-- A call of a program: it encrypts data under a reference, puts a payload into an envelope, or
writes the key or the value of a record of a topic on a thread. -/
inductive Call : Type 1 where
  | facade (cipher : RecordCipher) (r : KeyRef) (data : Bytes)
  | envelope (cipher : RecordCipher) (ref : Option KeyRef) (payload : Bytes)
  | key {α : Type} (extractor : Extractor α) (channel : Pairing) (inner : Serializer α)
    (thread : Thread) (topic : String) (record : Nat) (key : Option α)
  | value (cipher : RecordCipher) (channel : Pairing) (thread : Thread) (topic : String)
    (record : Nat) (value : Option Bytes)

namespace Call

/-- What a call ends with, and the desk that it leaves. -/
def perform (d : Desk) : Call → Except Failure (Option Bytes) × Desk
  | facade cipher r data => carry some .crypto d.account ((cipher.encrypt r data).exec d.activity)
  | envelope cipher ref payload =>
    carry some .sealing d.account ((cipher.encode ref payload).exec d.activity)
  | key extractor channel inner thread topic record k =>
    carry id .serde (d.leave record)
      ((Serializer.announcing extractor channel inner thread topic k).exec (d.exchange record))
  | value cipher channel thread topic record v =>
    carry id .serde (d.leave record)
      ((Serializer.sealing cipher channel Codec.bytes.serde.serializer thread topic v).exec
        (d.exchange record))

/-- Two calls that differ in the bytes of payloads and keys, and in nothing else. -/
inductive Alike : Call → Call → Prop where
  | facade {p p' : KeyProvider} {data data' : Bytes} (hp : p.Alike p')
    (hdata : data.length = data'.length) (aad : Bytes) (r : KeyRef) :
    Alike (.facade ⟨p, Gcm.cipher aad⟩ r data) (.facade ⟨p', Gcm.cipher aad⟩ r data')
  | envelope {p p' : KeyProvider} {data data' : Bytes} (hp : p.Alike p')
    (hdata : data.length = data'.length) (aad : Bytes) (ref : Option KeyRef) :
    Alike (.envelope ⟨p, Gcm.cipher aad⟩ ref data) (.envelope ⟨p', Gcm.cipher aad⟩ ref data')
  | key {α : Type} (extractor : Extractor α) (channel : Pairing) (inner : Serializer α)
    (thread : Thread) (topic : String) (record : Nat) (k : Option α) :
    Alike (.key extractor channel inner thread topic record k)
      (.key extractor channel inner thread topic record k)
  | value {p p' : KeyProvider} {v v' : Option Bytes} (hp : p.Alike p')
    (hv : v.map List.length = v'.map List.length) (aad : Bytes) (channel : Pairing)
    (thread : Thread) (topic : String) (record : Nat) :
    Alike (.value ⟨p, Gcm.cipher aad⟩ channel thread topic record v)
      (.value ⟨p', Gcm.cipher aad⟩ channel thread topic record v')

/-- How much of the bytes that a call gives is disclosed. -/
def disclosure (d : Desk) : Call → Disclosure
  | facade .. => .nonce
  | envelope _ ref _ => RecordCipher.disclosure ref
  | key .. => .all
  | value _ channel thread _ record _ =>
    RecordCipher.disclosure ((d.exchange record).reference channel thread)

/-- **One call discloses nothing else**: the desk that it leaves, its error and whether it gives
anything are the same, and of the bytes that it gives the part that is disclosed. -/
theorem perform_alike {call call' : Call} (h : call.Alike call') (d : Desk) :
    SameOutcome (Option.Rel (call.disclosure d).Agree) (call.perform d)
      (call'.perform d) := by
  cases h with
  | facade hp hdata aad r =>
    exact (RecordCipher.encrypt_alike hp hdata aad r d.activity).carry .some _ _
  | envelope hp hdata aad ref =>
    exact (RecordCipher.encode_alike hp hdata aad ref d.activity).carry .some _ _
  | key extractor channel inner thread topic record k =>
    apply SameOutcome.refl
    intro y
    cases y with
    | none => exact .none
    | some b => exact .some rfl
  | value hp hv aad channel thread topic record =>
    exact (Serializer.sealing_alike hp hv aad channel thread topic (d.exchange record)).carry id _ _

end Call

/-! ## Runs -/

/-- A call of a run, with what it found and what it left. -/
structure Entry : Type 1 where
  before : Desk
  call : Call
  answer : Except Failure (Option Bytes)
  after : Desk

/-- Two calls that found one desk and left one, with answers that agree in what is disclosed. -/
def Entry.Alike (e e' : Entry) : Prop :=
  e.before = e'.before ∧ e.after = e'.after ∧
    SameOutcome (Option.Rel (e.call.disclosure e.before).Agree) (e.answer, e.after)
      (e'.answer, e'.after)

namespace Desk

/-- Makes calls one after the other, whatever they end with. -/
def run (d : Desk) : List Call → List Entry × Desk
  | [] => ([], d)
  | call :: calls =>
    let (answer, after) := call.perform d
    let (entries, final) := after.run calls
    (⟨d, call, answer, after⟩ :: entries, final)

theorem run_cons (d : Desk) (call : Call) (calls : List Call) :
    d.run (call :: calls) =
      (⟨d, call, (call.perform d).1, (call.perform d).2⟩ :: ((call.perform d).2.run calls).1,
        ((call.perform d).2.run calls).2) := rfl

/-- A run makes the calls that it is given. -/
theorem calls_run (d : Desk) (calls : List Call) : (d.run calls).1.map Entry.call = calls := by
  induction calls generalizing d with
  | nil => rfl
  | cons call calls ih => rw [run_cons, List.map_cons, ih]

/-- Runs of programs that differ in secrets go through the same desks. -/
theorem run_alike {calls calls' : List Call} (h : List.Forall₂ Call.Alike calls calls')
    (d : Desk) : (d.run calls).2 = (d.run calls').2 ∧
      List.Forall₂ Entry.Alike (d.run calls).1 (d.run calls').1 := by
  induction h generalizing d with
  | nil => exact ⟨rfl, .nil⟩
  | @cons call call' calls calls' hcall hcalls ih =>
    have hstep := Call.perform_alike hcall d
    have hdesk : (call.perform d).2 = (call'.perform d).2 := hstep.state_eq
    obtain ⟨hfinal, hentries⟩ := ih (call.perform d).2
    rw [run_cons, run_cons, ← hdesk]
    refine ⟨hfinal, .cons ⟨rfl, rfl, ?_⟩ hentries⟩
    show SameOutcome _ (call.perform d) ((call'.perform d).1, (call.perform d).2)
    rw [hdesk]
    exact hstep

end Desk

/-- **Log, errors and shape do not depend on secrets.** Two programs make the same calls on one
desk, on the same records and threads, with the same topics, record keys, references and additional
data; their providers are maps or repositories that know the same references, and payloads and keys
differ in nothing but their bytes. Then call by call both find the same desk and leave the same
desk: log, tape, counts of look-ups and cipher calls, slots and headers. They fail at the same calls
with the same errors, and so in the same words, and give nothing at the same calls. Where they give
bytes these are equally long. What a facade gives begins with the same nonce. What is given under a
reference is a frame, and the frames have in common the ten bytes of the head, the reference and the
nonce behind it. What the key side writes is the same. -/
theorem secrets_undisclosed {calls calls' : List Call} (h : List.Forall₂ Call.Alike calls calls')
    (d : Desk) :
    (d.run calls).1.map Entry.call = calls ∧ (d.run calls').1.map Entry.call = calls' ∧
    (d.run calls).2 = (d.run calls').2 ∧
    List.Forall₂ (fun e e' =>
      e.before = e'.before ∧ e.after = e'.after ∧
      (∀ f, e.answer = .error f ↔ e'.answer = .error f) ∧
      (e.answer = .ok none ↔ e'.answer = .ok none) ∧
      ∀ b b', e.answer = .ok (some b) → e'.answer = .ok (some b') →
        b.length = b'.length ∧ (e.call.disclosure e.before).Agree b b' ∧
        ∀ r, e.call.disclosure e.before = .frame r →
          10 + r.size + Gcm.nonceSize ≤ b.length ∧ b.take 10 = b'.take 10 ∧
          (b.drop 10).take r.size = r.bytes ∧ (b'.drop 10).take r.size = r.bytes ∧
          (b.drop (10 + r.size)).take Gcm.nonceSize = (b'.drop (10 + r.size)).take Gcm.nonceSize)
      (d.run calls).1 (d.run calls').1 := by
  obtain ⟨hfinal, hentries⟩ := Desk.run_alike h d
  refine ⟨d.calls_run calls, d.calls_run calls', hfinal, hentries.imp ?_⟩
  intro e e' hentry
  obtain ⟨before, call, answer, after⟩ := e
  obtain ⟨before', call', answer', after'⟩ := e'
  obtain ⟨hbefore, hafter, houtcome⟩ := hentry
  refine ⟨hbefore, hafter, ?_⟩
  dsimp only at houtcome ⊢
  cases houtcome with
  | failed f s => exact ⟨fun _ => Iff.rfl, Iff.rfl, nofun⟩
  | given hbytes s =>
    cases hbytes with
    | none => exact ⟨fun _ => Iff.rfl, Iff.rfl, nofun⟩
    | @some b b' hagree =>
      refine ⟨fun f => ⟨nofun, nofun⟩, ⟨nofun, nofun⟩, ?_⟩
      intro c c' hc hc'
      obtain rfl : b = c := Option.some.inj (Except.ok.inj hc)
      obtain rfl : b' = c' := Option.some.inj (Except.ok.inj hc')
      refine ⟨hagree.length_eq, hagree, ?_⟩
      intro r hr
      rw [hr] at hagree
      exact hagree.frame_parts

/-- An encryption with a key that is too short, and a record whose value is sealed under the name
that its key side has announced. -/
def secretCalls (k : UInt8) (payload : Bytes) : List Call :=
  let short : RecordCipher := ⟨.ofList [(⟨[0x4B]⟩, List.replicate 31 k)], Gcm.cipher []⟩
  let stored : RecordCipher :=
    ⟨.ofRepository KeyRef.text? fun _ => some (List.replicate 32 k), Gcm.cipher [0x01]⟩
  [.facade short ⟨[0x4B]⟩ payload,
    .key (Extractor.ofNames fun _ _ => some "a") (some 1) Codec.bytes.serde.serializer .main
      "orders" 0 (some [0x31]),
    .value stored (some 1) .main "orders" 0 (some payload)]

theorem alike_secretCalls (k k' : UInt8) {payload payload' : Bytes}
    (h : payload.length = payload'.length) :
    List.Forall₂ Call.Alike (secretCalls k payload) (secretCalls k' payload') := by
  have hshort : ∀ r, (KeyProvider.ofList [(⟨[0x4B]⟩, List.replicate 31 k)] r).key.map List.length =
      (KeyProvider.ofList [(⟨[0x4B]⟩, List.replicate 31 k')] r).key.map List.length := by
    intro r
    by_cases hr : (⟨[0x4B]⟩ : KeyRef) = r
    · simp [KeyProvider.ofList, hr]
    · simp [KeyProvider.ofList, hr]
  have hstored : ∀ _ : String, (some (List.replicate 32 k)).map List.length =
      (some (List.replicate 32 k')).map List.length := by
    intro _
    simp
  have hpayload : (some payload).map List.length = (some payload').map List.length :=
    congrArg some h
  refine .cons (.facade (.listed hshort) h _ _) (.cons (.key ..) ?_)
  exact .cons (.value (.stored _ hstored) hpayload ..) .nil

/-- What the value side of `secretCalls` gives. -/
def secretBytes (k : UInt8) (payload : Bytes) : Bytes :=
  Envelope.frame [0x61] (Gcm.encryptWith (Gcm.blockOf (Aes.roundKeys (List.replicate 32 k))) [0x01]
    ((RandomTape.counting 0).window 0 Gcm.nonceSize) payload)

/-- Other keys and another payload: the short key is refused in the same words, and the two sealed
values have the reference and the nonce in common. -/
theorem secrets_undisclosed_sealed :
    let d : Desk := { activity := { tape := .counting 0 } }
    let run := d.run (secretCalls 1 [0x68, 0x69])
    let run' := d.run (secretCalls 2 [0x79, 0x6F])
    let refused : Except Failure (Option Bytes) :=
      .error (.crypto (.cipherFailure ⟨[0x4B]⟩ (.invalidKeyLength 31)))
    let b := secretBytes 1 [0x68, 0x69]
    let b' := secretBytes 2 [0x79, 0x6F]
    run.1.map Entry.answer = [refused, .ok (some [0x31]), .ok (some b)] ∧
      run'.1.map Entry.answer = [refused, .ok (some [0x31]), .ok (some b')] ∧
      run.2 = run'.2 ∧ b.length = b'.length ∧ (b.drop 10).take 1 = [0x61] ∧
      (b.drop 11).take Gcm.nonceSize = (b'.drop 11).take Gcm.nonceSize := by
  intro d run run' refused b b'
  have hanswers : run.1.map Entry.answer = [refused, .ok (some [0x31]), .ok (some b)] := rfl
  have hanswers' : run'.1.map Entry.answer = [refused, .ok (some [0x31]), .ok (some b')] := rfl
  have halike : List.Forall₂ Call.Alike (secretCalls 1 [0x68, 0x69]) (secretCalls 2 [0x79, 0x6F]) :=
    alike_secretCalls 1 2 rfl
  obtain ⟨-, -, hfinal, hentries⟩ := secrets_undisclosed halike d
  obtain ⟨-, hrest⟩ := List.forall₂_cons.mp hentries
  obtain ⟨-, hrest⟩ := List.forall₂_cons.mp hrest
  obtain ⟨⟨-, -, -, -, hbytes⟩, -⟩ := List.forall₂_cons.mp hrest
  obtain ⟨hlength, -, hparts⟩ := hbytes b b' rfl rfl
  obtain ⟨-, -, href, -, hnonce⟩ := hparts ⟨[0x61]⟩ rfl
  exact ⟨hanswers, hanswers', hfinal, hlength, href, hnonce⟩

end Program

end SealedRecords
