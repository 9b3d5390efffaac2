import SealedRecords.Proofs.Program.Secrets
import SealedRecords.Proofs.RecordCipher.Draws
import SealedRecords.Proofs.Serde.WrappedKeys

/-!
# Random bytes are never reused

A program encrypts and decrypts, puts payloads into envelopes and takes them out,
makes data keys, and writes and reads records with whatever serdes can be put
together from the layers of this library. What random bytes one of these operations
draws can be said without running it further than to its references:
`Operation.draws` lists the draws, and depends on the cipher through the lengths of
the keys alone.

> `Operation.spends_perform`: an operation draws just that, whether it succeeds or
> not.

For serializers this is an induction over their layers, `Writer.spends`; a layer
draws when its part of the work is done, so what the outer layers draw follows or
precedes what the inner ones draw, but never comes between.

Every operation starts where the one before has stopped, so in a run as a whole the
windows of all draws lie one behind the other:

> `Desk.spends_operate`.
-/

namespace SealedRecords

open Draw

/-! ## Data keys -/

namespace MasterKey

variable {m : MasterKey} {length : Nat} {topic : String} {key : α} {tape : RandomTape}
  {ref : Option KeyRef}

theorem tape_extractor (m : MasterKey) (length : Nat) (topic : String) (key : α)
    (tape : RandomTape) : (m.extractor length topic key tape).2 =
      (m.wrap (nextDataKey length tape) (afterDataKey length tape)).2 := by
  rw [exec_extractor]
  rcases m.wrap (nextDataKey length tape) (afterDataKey length tape) with ⟨e | wrapped, tape'⟩
  · rfl
  · rfl

theorem extractor_eq_ok_iff : (m.extractor length topic key tape).1 = .ok ref ↔
    ∃ wrapped, ref = some ⟨wrapped⟩ ∧
      (m.wrap (nextDataKey length tape) (afterDataKey length tape)).1 = .ok wrapped := by
  rw [exec_extractor]
  rcases m.wrap (nextDataKey length tape) (afterDataKey length tape) with ⟨e | wrapped, tape'⟩
  · simp
  · simp [eq_comm]

end MasterKey

/-- Data keys of a length for each record, wrapped with AES-GCM under a master key. -/
structure DataKeys where
  aad : Bytes
  masterKey : Bytes
  length : Nat

namespace DataKeys

/-- The extractor that makes them. -/
def extractor (g : DataKeys) : Extractor α :=
  MasterKey.extractor ⟨Gcm.cipher g.aad, g.masterKey⟩ g.length

/-- What the data key of a record draws: its own bytes, and behind them what wrapping it draws. -/
def draws (g : DataKeys) (tape : RandomTape) : List Draw :=
  .dataKey (tape.window tape.drawn g.length) ::
    Gcm.draws g.aad g.masterKey (tape.window tape.drawn g.length) (tape.advance g.length)

variable {g : DataKeys} {topic : String} {key : α} {ref : Option KeyRef} {tape : RandomTape}

theorem spends_extractor (g : DataKeys) (topic : String) (key : α) (tape : RandomTape) :
    Spends tape (g.draws tape) (g.extractor topic key tape).2 := by
  unfold extractor draws
  rw [MasterKey.tape_extractor]
  exact spends_dataKey (Gcm.spends_encrypt g.aad g.masterKey _ (tape.advance g.length))

/-- A reference that is given is the output that the second nonce was drawn for. -/
theorem extractor_eq_ok_iff : (g.extractor topic key tape).1 = .ok ref ↔
    ∃ wrapped, ref = some ⟨wrapped⟩ ∧
      g.draws tape = [.dataKey (tape.window tape.drawn g.length), .nonce wrapped] := by
  unfold extractor draws
  rw [MasterKey.extractor_eq_ok_iff]
  refine exists_congr fun wrapped => and_congr_right fun _ => ?_
  rw [List.cons.injEq, and_iff_right rfl, ← Gcm.encrypt_eq_ok_iff]
  rfl

end DataKeys

/-- How the reference of a record is computed. -/
inductive Extraction (α : Type) where
  /-- By making a data key for the record. -/
  | dataKey (g : DataKeys)
  /-- In a way that needs no random bytes. -/
  | quiet (x : Extractor α) (h : ∀ topic key tape, (x topic key tape).2 = tape)

namespace Extraction

def extractor : Extraction α → Extractor α
  | dataKey g => g.extractor
  | quiet x _ => x

/-- What the reference of a record draws; without a key there is none. -/
def draws (x : Extraction α) (key : Option α) (tape : RandomTape) : List Draw :=
  match x, key with
  | dataKey g, some _ => g.draws tape
  | _, _ => []

theorem spends_ofRecord (x : Extraction α) (topic : String) (key : Option α) (tape : RandomTape) :
    Spends tape (x.draws key tape) (x.extractor.ofRecord topic key tape).2 := by
  cases key with
  | none => cases x <;> exact .nil tape
  | some key =>
    cases x with
    | dataKey g => exact g.spends_extractor topic key tape
    | quiet x h =>
      show Spends tape [] (x topic key tape).2
      rw [h]
      exact .nil tape

end Extraction

/-! ## Serializers and deserializers -/

/-- The layers of a serializer. -/
inductive Writer (α : Type) where
  | codec (c : Codec α)
  | announcing (x : Extraction α) (channel : Pairing) (inner : Writer α)
  | sealing (c : GcmCipher) (channel : Pairing) (inner : Writer α)

namespace Writer

/-- The serializer itself. -/
def serializer : Writer α → Serializer α
  | codec c => c.serde.serializer
  | announcing x channel inner => .announcing x.extractor channel inner.serializer
  | sealing c channel inner => .sealing c.recordCipher channel inner.serializer

variable (thread : Thread) (topic : String) (v : Option α)

/-- The reference under which a sealing layer seals a payload, if it finds `s` and its inner layers
leave `s'`: what the slot of its channel held, or without a channel what the headers say. -/
def found (channel : Pairing) (thread : Thread) (s s' : Exchange) : Option KeyRef :=
  (channel.map fun c => s.slots.peek thread c).getD s'.headers.keyRef?

/-- What a call of a serializer draws. An announcing layer draws before its inner layers, which are
not called if it fails; a sealing layer draws after them, if they give a payload. -/
def draws : Writer α → Exchange → List Draw
  | codec _, _ => []
  | announcing x channel inner, s =>
    x.draws v s.activity.tape ++
      match x.extractor.ofRecord topic v s.activity.tape with
      | (.error _, _) => []
      | (.ok ref, tape) =>
        inner.draws (Serializer.announced (s.drawn tape) channel thread topic ref)
  | sealing c channel inner, s =>
    inner.draws (s.taken channel thread) ++
      match (inner.serializer thread topic v).exec (s.taken channel thread) with
      | (.ok (some payload), s') =>
        c.envelopeDraws (found channel thread s s') payload s'.activity.tape
      | _ => []

/-- The reference of the frame that a call of a serializer gives; none if it gives no frame. -/
def reference? : Writer α → Exchange → Option KeyRef
  | codec _, _ => none
  | announcing x channel inner, s =>
    match x.extractor.ofRecord topic v s.activity.tape with
    | (.error _, _) => none
    | (.ok ref, tape) =>
      inner.reference? (Serializer.announced (s.drawn tape) channel thread topic ref)
  | sealing _ channel inner, s =>
    match (inner.serializer thread topic v).exec (s.taken channel thread) with
    | (.ok (some _), s') => found channel thread s s'
    | _ => none

variable {thread topic v}

theorem tape_taken (s : Exchange) (channel : Pairing) (thread : Thread) :
    (s.taken channel thread).activity.tape = s.activity.tape := by
  cases channel <;> rfl

/-- Sealing a payload draws what putting it into an envelope draws. -/
theorem spends_sealPayload (c : GcmCipher) (topic : String) (ref : Option KeyRef) (payload : Bytes)
    (s : Exchange) : Spends s.activity.tape (c.envelopeDraws ref payload s.activity.tape)
      ((Serializer.sealPayload c.recordCipher topic ref payload).exec s).2.activity.tape := by
  have hspent := c.spends_encode ref payload s.activity
  rw [Serializer.exec_sealPayload]
  generalize (c.recordCipher.encode ref payload).exec s.activity = ended at hspent ⊢
  obtain ⟨(e | e) | b, a⟩ := ended
  · exact hspent
  · exact hspent
  · exact hspent

/-- **A serializer draws what its layers draw**, also if one of them fails. -/
theorem spends (w : Writer α) (s : Exchange) :
    Spends s.activity.tape (w.draws thread topic v s)
      ((w.serializer thread topic v).exec s).2.activity.tape := by
  induction w generalizing s with
  | codec c => exact .nil _
  | announcing x channel inner ih =>
    have hextracted := x.spends_ofRecord topic v s.activity.tape
    rw [draws, serializer, Serializer.exec_announcing]
    generalize x.extractor.ofRecord topic v s.activity.tape = extracted at hextracted ⊢
    obtain ⟨e | ref, tape⟩ := extracted
    · -- without a reference the inner layers are not called
      simp only [List.append_nil]
      exact hextracted
    · have hinner := ih (Serializer.announced (s.drawn tape) channel thread topic ref)
      rw [Serializer.tape_announced] at hinner
      exact hextracted.append hinner
  | «sealing» c channel inner ih =>
    have hinner := ih (s.taken channel thread)
    rw [tape_taken] at hinner
    rw [draws, serializer, Serializer.exec_sealing]
    generalize (inner.serializer thread topic v).exec (s.taken channel thread) = written
      at hinner ⊢
    obtain ⟨e | (_ | payload), s'⟩ := written
    -- without a payload there is nothing to encrypt
    · simp only [List.append_nil]
      exact hinner
    · simp only [List.append_nil]
      exact hinner
    · exact hinner.append (spends_sealPayload c topic _ payload s')

/-- What a serializer gives under a reference is a frame around the output that its last nonce was
drawn for. -/
theorem framed (w : Writer α) {s : Exchange} {b : Bytes} {r : KeyRef}
    (h : ((w.serializer thread topic v).exec s).1 = .ok (some b))
    (href : w.reference? thread topic v s = some r) :
    ∃ out, (w.draws thread topic v s).getLast? = some (.nonce out) ∧
      b = Envelope.frame r.bytes out := by
  induction w generalizing s with
  | codec c => cases href
  | announcing x channel inner ih =>
    rw [serializer, Serializer.exec_announcing] at h
    rw [reference?] at href
    rw [draws]
    generalize x.extractor.ofRecord topic v s.activity.tape = extracted at h href ⊢
    obtain ⟨e | ref, tape⟩ := extracted
    · cases href
    · obtain ⟨out, hlast, hb⟩ :=
        ih (s := Serializer.announced (s.drawn tape) channel thread topic ref) h href
      refine ⟨out, ?_, hb⟩
      simp only [List.getLast?_append, hlast, Option.some_or]
  | «sealing» c channel inner ih =>
    rw [serializer, Serializer.exec_sealing] at h
    rw [reference?] at href
    rw [draws]
    generalize (inner.serializer thread topic v).exec (s.taken channel thread) = written
      at h href ⊢
    obtain ⟨e | (_ | payload), s'⟩ := written
    · cases href
    · cases href
    · have hfound : found channel thread s s' = some r := href
      unfold found at hfound
      simp only [hfound] at h
      have hencoded := Serializer.encode_of_sealPayload (Prod.ext h rfl)
      obtain ⟨out, hdraws, hb⟩ := GcmCipher.framed_of_encode (congrArg Prod.fst hencoded)
      refine ⟨out, ?_, hb⟩
      simp only [hfound, found, hdraws, List.getLast?_append, List.getLast?_singleton,
        Option.some_or]

end Writer

/-- The layers of a deserializer. -/
inductive Reader (α : Type) where
  | codec (c : Codec α)
  | opening (c : GcmCipher) (inner : Reader α)

namespace Reader

/-- The deserializer itself. -/
def deserializer : Reader α → Deserializer α
  | codec c => c.serde.deserializer
  | opening c inner => .opening c.recordCipher inner.deserializer

variable {thread : Thread} {topic : String}

/-- A deserializer draws nothing, also if one of its layers fails. -/
theorem tape_deserializer (r : Reader α) (data : Option Bytes) (s : Exchange) :
    ((r.deserializer thread topic data).exec s).2.activity.tape = s.activity.tape := by
  induction r generalizing data s with
  | codec c => rfl
  | opening c inner ih =>
    cases data with
    | none => rfl
    | some b =>
      have hdecoded := RecordCipher.tape_decode c.recordCipher b s.activity
      rw [deserializer, Deserializer.exec_opening]
      generalize (c.recordCipher.decode b).exec s.activity = decoded at hdecoded ⊢
      obtain ⟨e | opened, a⟩ := decoded
      · exact hdecoded
      · have hinner := ih opened.payload.toOption (s.withActivity a)
        simp only
        generalize (inner.deserializer thread topic opened.payload.toOption).exec
          (s.withActivity a) = ended at hinner ⊢
        obtain ⟨e | value, s'⟩ := ended
        · exact hinner.trans hdecoded
        · exact hinner.trans hdecoded

end Reader

namespace Program

/-! ## Operations -/

/-- An operation of a program. -/
inductive Operation : Type 1 where
  | encrypt (c : GcmCipher) (r : KeyRef) (data : Bytes)
  | decrypt (c : GcmCipher) (r : KeyRef) (data : Bytes)
  | encode (c : GcmCipher) (ref : Option KeyRef) (payload : Bytes)
  | decode (c : GcmCipher) (data : Bytes)
  | extract (g : DataKeys) (topic : String)
  | write {α : Type} (w : Writer α) (thread : Thread) (topic : String) (record : Nat)
    (v : Option α)
  | read {α : Type} (r : Reader α) (thread : Thread) (topic : String) (record : Nat)
    (data : Option Bytes)

namespace Operation

/-- What an operation ends with, as far as it gives bytes, and the desk that it leaves. -/
def perform (d : Desk) : Operation → Except Failure (Option Bytes) × Desk
  | encrypt c r data =>
    carry some .crypto d.account ((c.recordCipher.encrypt r data).exec d.activity)
  | decrypt c r data =>
    carry some .crypto d.account ((c.recordCipher.decrypt r data).exec d.activity)
  | encode c ref payload =>
    carry some .sealing d.account ((c.recordCipher.encode ref payload).exec d.activity)
  | decode c data =>
    carry (fun opened => opened.payload.toOption) (fun e => .sealing (.envelope e)) d.account
      ((c.recordCipher.decode data).exec d.activity)
  | extract g topic =>
    carry (Option.map KeyRef.bytes) (fun e => .serde (.keyReference e)) d.account
      ((Act.drawing (g.extractor topic ())).exec d.activity)
  | write w thread topic record v =>
    carry id .serde (d.leave record) ((w.serializer thread topic v).exec (d.exchange record))
  | read r thread topic record data =>
    carry (fun _ => none) .serde (d.leave record)
      ((r.deserializer thread topic data).exec (d.exchange record))

/-- What an operation draws. -/
def draws (d : Desk) : Operation → List Draw
  | encrypt c r data => c.encryptionDraws r data d.activity.tape
  | decrypt .. => []
  | encode c ref payload => c.envelopeDraws ref payload d.activity.tape
  | decode .. => []
  | extract g _ => g.draws d.activity.tape
  | write w thread topic record v => w.draws thread topic v (d.exchange record)
  | read .. => []

/-- How an operation hands out the output of an encryption, if that is what it gives: as it is, or
in a frame. -/
def packaging (d : Desk) : Operation → Option (Bytes → Bytes)
  | encrypt .. => some id
  | extract .. => some id
  | encode _ ref _ => ref.map fun r => Envelope.frame r.bytes
  | write w thread topic record v =>
    (w.reference? thread topic v (d.exchange record)).map fun r => Envelope.frame r.bytes
  | _ => none

theorem snd_carry (give : α → β) (wrap : ε → δ) (leave : σ → τ) (x : Except ε α × σ) :
    (carry give wrap leave x).2 = leave x.2 := by
  obtain ⟨e | y, s⟩ := x
  · rfl
  · rfl

theorem carry_eq_ok {give : α → β} {wrap : ε → δ} {leave : σ → τ} {x : Except ε α × σ} {y : β}
    (h : (carry give wrap leave x).1 = .ok y) : ∃ z, x.1 = .ok z ∧ give z = y := by
  obtain ⟨e | z, s⟩ := x
  · cases h
  · exact ⟨z, rfl, Except.ok.inj h⟩

/-- **An operation draws what is said of it**, whatever it ends with. -/
theorem spends_perform (op : Operation) (d : Desk) :
    Spends d.activity.tape (op.draws d) (op.perform d).2.activity.tape := by
  cases op with
  | encrypt c r data =>
    rw [perform, snd_carry]
    exact c.spends_encrypt r data d.activity
  | decrypt c r data =>
    rw [perform, snd_carry]
    show Spends _ [] ((c.recordCipher.decrypt r data).exec d.activity).2.tape
    rw [RecordCipher.tape_decrypt]
    exact .nil _
  | encode c ref payload =>
    rw [perform, snd_carry]
    exact c.spends_encode ref payload d.activity
  | decode c data =>
    rw [perform, snd_carry]
    show Spends _ [] ((c.recordCipher.decode data).exec d.activity).2.tape
    rw [RecordCipher.tape_decode]
    exact .nil _
  | extract g topic =>
    rw [perform, snd_carry]
    exact g.spends_extractor topic () d.activity.tape
  | write w thread topic record v =>
    rw [perform, snd_carry]
    exact w.spends (d.exchange record)
  | read r thread topic record data =>
    rw [perform, snd_carry]
    show Spends _ [] ((r.deserializer thread topic data).exec (d.exchange record)).2.activity.tape
    rw [r.tape_deserializer]
    exact .nil _

/-- An operation that gives the output of an encryption has drawn its nonce last. -/
theorem packaged (op : Operation) {d : Desk} {pack : Bytes → Bytes} {b : Bytes}
    (hpack : op.packaging d = some pack) (h : (op.perform d).1 = .ok (some b)) :
    ∃ out, (op.draws d).getLast? = some (.nonce out) ∧ b = pack out := by
  cases op with
  | encrypt c r data =>
    obtain rfl := Option.some.inj hpack
    obtain ⟨out, hout, hb⟩ := carry_eq_ok h
    obtain rfl := Option.some.inj hb
    refine ⟨out, ?_, rfl⟩
    rw [draws, GcmCipher.encrypt_eq_ok_iff.mp hout]
    rfl
  | extract g topic =>
    obtain rfl := Option.some.inj hpack
    obtain ⟨ref, hextracted, hb⟩ := carry_eq_ok h
    have href : (g.extractor topic () d.activity.tape).1 = .ok ref := hextracted
    obtain ⟨wrapped, rfl, hdraws⟩ := DataKeys.extractor_eq_ok_iff.mp href
    obtain rfl := Option.some.inj hb
    refine ⟨wrapped, ?_, rfl⟩
    rw [draws, hdraws]
    rfl
  | encode c ref payload =>
    obtain ⟨r, rfl, rfl⟩ := Option.map_eq_some_iff.mp hpack
    obtain ⟨b', hok, hb⟩ := carry_eq_ok h
    obtain rfl := Option.some.inj hb
    obtain ⟨out, hdraws, hframe⟩ := GcmCipher.framed_of_encode hok
    refine ⟨out, ?_, hframe⟩
    rw [draws, hdraws]
    rfl
  | write w thread topic record v =>
    obtain ⟨r, href, rfl⟩ := Option.map_eq_some_iff.mp hpack
    obtain ⟨y, hok, rfl⟩ := carry_eq_ok h
    exact w.framed hok href
  | _ => cases hpack

end Operation

/-! ## Runs -/

/-- An operation of a run, with what it found and what it left. -/
structure Performed : Type 1 where
  before : Desk
  operation : Operation
  answer : Except Failure (Option Bytes)
  after : Desk

namespace Performed

/-- What the operation draws. -/
def draws (e : Performed) : List Draw := e.operation.draws e.before

/-- Where the operation draws it. -/
def windows (e : Performed) : List Window :=
  SealedRecords.windows e.before.activity.tape.drawn e.draws

end Performed

namespace Desk

/-- Performs operations one after the other, whatever they end with. -/
def operate (d : Desk) : List Operation → List Performed × Desk
  | [] => ([], d)
  | op :: ops =>
    let (answer, after) := op.perform d
    let (entries, final) := after.operate ops
    (⟨d, op, answer, after⟩ :: entries, final)

theorem operate_cons (d : Desk) (op : Operation) (ops : List Operation) :
    d.operate (op :: ops) =
      (⟨d, op, (op.perform d).1, (op.perform d).2⟩ :: ((op.perform d).2.operate ops).1,
        ((op.perform d).2.operate ops).2) := rfl

variable {d : Desk} {ops : List Operation} {e : Performed}

theorem operations_operate (d : Desk) (ops : List Operation) :
    (d.operate ops).1.map Performed.operation = ops := by
  induction ops generalizing d with
  | nil => rfl
  | cons op ops ih => rw [operate_cons, List.map_cons, ih]

/-- What is said to have been performed was performed. -/
theorem perform_of_mem_operate (h : e ∈ (d.operate ops).1) :
    e.operation.perform e.before = (e.answer, e.after) := by
  induction ops generalizing d with
  | nil => exact absurd h List.not_mem_nil
  | cons op ops ih =>
    rw [operate_cons] at h
    rcases List.mem_cons.mp h with rfl | h
    · rfl
    · exact ih h

/-- A run draws what its operations draw, and each in the window behind the one before. -/
theorem spends_operate (d : Desk) (ops : List Operation) :
    Spends d.activity.tape ((d.operate ops).1.flatMap Performed.draws)
        (d.operate ops).2.activity.tape ∧
      (d.operate ops).1.flatMap Performed.windows =
        windows d.activity.tape.drawn ((d.operate ops).1.flatMap Performed.draws) := by
  induction ops generalizing d with
  | nil => exact ⟨.nil _, rfl⟩
  | cons op ops ih =>
    have hfirst := op.spends_perform d
    obtain ⟨hrest, hwindows⟩ := ih (op.perform d).2
    -- the rest of the run starts where the first operation has stopped
    have hstart : (op.perform d).2.activity.tape.drawn
        = d.activity.tape.drawn + total (op.draws d) := by
      rw [hfirst.tape_eq]
      rfl
    rw [operate_cons, List.flatMap_cons, List.flatMap_cons]
    refine ⟨hfirst.append hrest, ?_⟩
    rw [hwindows, windows_append, hstart]
    rfl

/-- **Random bytes are never used twice.** Take any run of encryptions and decryptions with AES-GCM,
of envelopes written and read, of data keys made, and of records written and read, each with keys,
references and layers of its own. The windows of what its operations draw lie one behind the other
on the tape, in the order of the operations, without a gap and without a byte in common, and cover
all that the run has drawn. The bytes in them are the data keys, and the first twelve bytes of the
outputs of the encryptions. Each operation moves the tape by what it draws, and by nothing else: so
a failed one by what it had drawn until then, and one that encrypts nothing not at all. Where an
operation gives the output of an encryption, as it is or in a frame, it is the output that it drew
its last nonce for. -/
theorem random_bytes_never_reused (d : Desk) (ops : List Operation) :
    let entries := (d.operate ops).1
    let tape := d.activity.tape
    let draws := entries.flatMap Performed.draws
    let places := entries.flatMap Performed.windows
    entries.map Performed.operation = ops ∧
    places = windows tape.drawn draws ∧
    places.Pairwise (fun v w => v.stop ≤ w.start) ∧
    (∀ w ∈ places, w.draw.bytes = tape.window w.start w.draw.size) ∧
    (d.operate ops).2.activity.tape = tape.advance (total draws) ∧
    ∀ e ∈ entries,
      e.after.activity.tape = e.before.activity.tape.advance (total e.draws) ∧
      ∀ pack b, e.operation.packaging e.before = some pack → e.answer = .ok (some b) →
        ∃ out, e.draws.getLast? = some (.nonce out) ∧ b = pack out := by
  intro entries tape draws places
  obtain ⟨hspent, hplaces⟩ := d.spends_operate ops
  have hplaced : places = windows tape.drawn draws := hplaces
  refine ⟨d.operations_operate ops, hplaced, ?_, ?_, hspent.tape_eq, fun e he => ?_⟩
  · rw [hplaced]
    exact pairwise_windows _ _
  · rw [hplaced]
    exact hspent.bytes_eq
  · have hperformed := perform_of_mem_operate he
    have hstep := e.operation.spends_perform e.before
    rw [hperformed] at hstep
    refine ⟨hstep.tape_eq, fun pack b hpack hb => ?_⟩
    exact e.operation.packaged hpack ((congrArg Prod.fst hperformed).trans hb)

/-- A master key that is too short has cost the data key and no nonce; the encryption that follows
begins behind it. -/
example : let d : Desk := { activity := { tape := .counting 0 } }
    let c : GcmCipher := ⟨.ofList [(⟨[0x4B]⟩, List.replicate 32 7)], []⟩
    let ops : List Operation := [.extract ⟨[], List.replicate 31 7, 2⟩ "orders",
      .encode c (some ⟨[]⟩) [0x68], .encrypt c ⟨[0x4B]⟩ [0x68], .decrypt c ⟨[0x4B]⟩ [0x68]]
    ((d.operate ops).1.flatMap Performed.draws).map size = [2, 12] := rfl

end Desk

end Program

end SealedRecords
