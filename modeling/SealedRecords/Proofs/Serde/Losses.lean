import SealedRecords.Proofs.RecordCipher.Losses
import SealedRecords.Proofs.Serde.SlotEffects

/-!
# No call loses a record in silence

A record that was lost comes out like a record that is null: as absent. What tells
them apart is the log. `TellsLoss` has one constructor for each of the two things
that can be said of a call, with the answer and the reports together: nothing is
lost and nothing is reported, or there was a record, it came out as absent, and the
reports are those for one cause, about the reference in question.

Behind a codec that takes something for nothing, or nothing for something, an
absent answer would mean neither. `Serde.Plain` rules that out, and holds of every
codec that passes absence through:

> `plain_ofFunctions`: the codecs of the library are plain.

> `tellsLoss_sealing`, `tellsLoss_opening`: over a plain inner codec the two layers
> that encrypt and decrypt tell of every loss.
-/

namespace SealedRecords

/-- A serde that is no party to losses: it leaves the headers and the log alone, and gives nothing
for nothing and never for something. -/
structure Serde.Plain (inner : Serde α) : Prop where
  keepsHeaders : inner.KeepsHeaders
  keepsLog_serializer : ∀ thread topic v,
    (inner.serializer thread topic v).Keeps fun s => s.activity.log
  keepsLog_deserializer : ∀ thread topic b,
    (inner.deserializer thread topic b).Keeps fun s => s.activity.log
  writes_none_iff : ∀ thread topic v s,
    ((inner.serializer thread topic v).exec s).1 = .ok none ↔ v = none
  reads_none_iff : ∀ thread topic b s,
    ((inner.deserializer thread topic b).exec s).1 = .ok none ↔ b = none

theorem Codec.plain_ofFunctions (write : α → Bytes) (read : Bytes → Except SerdeError α) :
    (ofFunctions write read).serde.Plain where
  keepsHeaders := keepsHeaders_ofFunctions write read
  keepsLog_serializer := fun _ _ _ _ => rfl
  keepsLog_deserializer := fun _ _ _ _ => rfl
  writes_none_iff := by
    intro thread topic v s
    show (Except.ok (v.map write) : Except SerdeError _) = .ok none ↔ v = none
    rw [Except.ok.injEq, Option.map_eq_none_iff]
  reads_none_iff := by
    intro thread topic b s
    cases b with
    | none => exact iff_of_true rfl rfl
    | some b =>
      refine iff_of_false (fun h => ?_) (Option.some_ne_none b)
      simp only [ofFunctions, serde, SerdeM.exec_codec] at h
      cases hread : read b with
      | error e =>
        rw [hread] at h
        cases h
      | ok v =>
        rw [hread] at h
        cases h

/-- The reference of the frame that the bytes are, if they are a sealed one. -/
def Envelope.reference? (b : Bytes) : Option KeyRef := (decode b).toOption.bind keyRef?

/-- What a call says about a loss. A record is given to it or not, `ref` is the reference under
which it is sealed, and the call starts from `s` and ends with `out`. -/
inductive TellsLoss (given : Bool) (ref : Option KeyRef) (direction : Direction) (topic : String)
    (s : Exchange) (out : Except SerdeError (Option β) × Exchange) : Prop where
  /-- Nothing is lost, and nothing is reported as lost. -/
  | kept (hanswer : given = true → out.1 ≠ .ok none)
    (hreports : s.activity.Reports [] out.2.activity)
  /-- A record is lost for one cause, and that is reported. -/
  | lost (e : CryptoError) (hgiven : given = true) (href : ref = some e.keyRef)
    (hanswer : out.1 = .ok none)
    (hreports : s.activity.Reports (e.losses topic direction) out.2.activity)

section

variable {given : Bool} {ref : Option KeyRef} {direction : Direction} {topic : String}
  {s s₁ : Exchange} {out : Except SerdeError (Option β) × Exchange}

/-- What happened before without a loss does not matter. -/
theorem TellsLoss.after (hbefore : s.activity.Reports [] s₁.activity)
    (h : TellsLoss given ref direction topic s₁ out) :
    TellsLoss given ref direction topic s out := by
  cases h with
  | kept hanswer hreports => exact .kept hanswer (hbefore.trans hreports)
  | lost e hgiven href hanswer hreports =>
    exact .lost e hgiven href hanswer (hbefore.trans hreports)

/-- A record was lost if and only if the facade reported once that there was no key, or that the
cipher failed, for its reference, and on writing also that it is left out. -/
theorem TellsLoss.lost_iff (h : TellsLoss given ref direction topic s out) :
    ∃ es, out.2.activity.log = s.activity.log ++ es ∧
      (given = true ∧ out.1 = .ok none ↔ ∃ ev r, ref = some r ∧ ev.Blames direction r ∧
        es.filter Event.isFacade = [ev] ∧
        (direction = .writing → (es.filter Event.isDropped).length = 1)) ∧
      (¬ (given = true ∧ out.1 = .ok none) →
        es.filter Event.isFacade = [] ∧ es.filter Event.isDropped = []) := by
  cases h with
  | kept hanswer hreports =>
    obtain ⟨es, hlog, hfacade, hdropped⟩ := hreports.exists_events
    have hkept : ¬ (given = true ∧ out.1 = .ok none) := fun h => hanswer h.1 h.2
    have hsilent : ¬ ∃ ev r, ref = some r ∧ ev.Blames direction r ∧
        es.filter Event.isFacade = [ev] ∧
        (direction = .writing → (es.filter Event.isDropped).length = 1) := by
      intro h
      obtain ⟨ev, r, -, -, hone, -⟩ := h
      rw [hfacade] at hone
      cases hone
    exact ⟨es, hlog, iff_of_false hkept hsilent, fun _ => ⟨hfacade, hdropped⟩⟩
  | lost e hgiven href hanswer hreports =>
    obtain ⟨es, hlog, hfacade, hdropped⟩ := hreports.exists_events
    obtain ⟨ev, hone, hblames⟩ := e.filter_isFacade_losses topic direction
    have hlost : given = true ∧ out.1 = .ok none := ⟨hgiven, hanswer⟩
    have hwriting : direction = .writing → (es.filter Event.isDropped).length = 1 := by
      intro hdirection
      rw [hdropped, hdirection, e.filter_isDropped_losses]
      rfl
    exact ⟨es, hlog,
      iff_of_true hlost ⟨ev, e.keyRef, href, hblames, hfacade.trans hone, hwriting⟩,
      fun hnot => absurd hlost hnot⟩

end

namespace Serializer

variable {inner : Serde α}

/-! ## Writing -/

theorem tellsLoss_sealPayload (cipher : RecordCipher) (topic : String) (ref : Option KeyRef)
    (payload : Bytes) (s : Exchange) :
    TellsLoss true ref .writing topic s ((sealPayload cipher topic ref payload).exec s) := by
  have hcases := cipher.reports_encode ref payload s.activity
  rw [exec_sealPayload]
  rcases hx : (cipher.encode ref payload).exec s.activity with ⟨(e | e) | b, a⟩
  · rw [hx] at hcases
    obtain ⟨e', he', -⟩ | ⟨-, hreports⟩ := hcases
    · cases he'
    · exact .kept (fun _ => nofun) hreports
  · rw [hx] at hcases
    obtain ⟨e', he', href, hreports⟩ | ⟨hnot, -⟩ := hcases
    · obtain rfl : e = e' := SealingError.crypto.inj (Except.error.inj he')
      -- the layer above the facade adds that the record is left out
      exact .lost e rfl href rfl
        (hreports.trans (Activity.reports_noted a [.recordDropped topic e]))
    · exact absurd rfl (hnot e)
  · rw [hx] at hcases
    obtain ⟨e', he', -⟩ | ⟨-, hreports⟩ := hcases
    · cases he'
    · exact .kept (fun _ => nofun) hreports

/-- A value side over a plain codec tells of every value that it loses. -/
theorem tellsLoss_sealing (cipher : RecordCipher) (channel : Pairing) (hinner : inner.Plain)
    (thread : Thread) (topic : String) (value : Option α) (s : Exchange) :
    TellsLoss value.isSome (s.reference channel thread) .writing topic s
      ((sealing cipher channel inner.serializer thread topic value).exec s) := by
  have htaken : s.activity.Reports [] (s.taken channel thread).activity := by
    cases channel <;> exact Activity.reports_of_log_eq rfl
  have hlog := hinner.keepsLog_serializer thread topic value (s.taken channel thread)
  have hnone := hinner.writes_none_iff thread topic value (s.taken channel thread)
  rw [exec_sealing_of_keepsHeaders cipher channel hinner.keepsHeaders.serializer]
  rcases hy : (inner.serializer thread topic value).exec (s.taken channel thread)
    with ⟨e | (_ | x), s₁⟩
  · rw [hy] at hlog
    exact .kept (fun _ => nofun) (htaken.trans (Activity.reports_of_log_eq hlog))
  · rw [hy] at hlog hnone
    -- a plain codec writes nothing for nothing only
    obtain rfl : value = none := hnone.mp rfl
    exact .kept nofun (htaken.trans (Activity.reports_of_log_eq hlog))
  · rw [hy] at hlog hnone
    have hgiven : value.isSome = true := by
      rw [Option.isSome_iff_ne_none]
      intro hvalue
      cases hnone.mpr hvalue
    rw [hgiven]
    exact (tellsLoss_sealPayload cipher topic _ x s₁).after
      (htaken.trans (Activity.reports_of_log_eq hlog))

/-- A plain codec loses nothing itself. -/
theorem tellsLoss_plain (hinner : inner.Plain) (thread : Thread) (topic : String)
    (value : Option α) (s : Exchange) :
    TellsLoss value.isSome none .writing topic s
      ((inner.serializer thread topic value).exec s) := by
  have hnone := hinner.writes_none_iff thread topic value s
  refine .kept (fun hgiven h => ?_)
    (Activity.reports_of_log_eq (hinner.keepsLog_serializer thread topic value s))
  rw [hnone.mp h] at hgiven
  cases hgiven

/-- Announcing a reference is no loss, and neither is it if there is none to announce. -/
theorem reports_announced (channel : Pairing) (thread : Thread) (topic : String)
    (ref : Option KeyRef) (s : Exchange) :
    s.activity.Reports [] (announced s channel thread topic ref).activity := by
  cases channel with
  | none => exact Activity.reports_noted _ [.referenceExtracted topic ref.isSome]
  | some c =>
    exact (Activity.reports_noted _ [.referenceExtracted topic ref.isSome]).trans
      (Activity.reports_noted _ [.referencePublished c ref.isSome])

/-- A key side tells of a loss if its inner serializer does, whatever reference was announced. -/
theorem tellsLoss_announcing (extractor : Extractor α) (channel : Pairing) (inner : Serializer α)
    (ref : Except ExtractionError (Option KeyRef) → Option KeyRef) (thread : Thread)
    (topic : String) (value : Option α) (s : Exchange)
    (h : ∀ found s, TellsLoss value.isSome (ref (.ok found)) .writing topic
      (announced s channel thread topic found)
      ((inner thread topic value).exec (announced s channel thread topic found))) :
    TellsLoss value.isSome (ref (extractor.ofRecord topic value s.activity.tape).1) .writing topic s
      ((announcing extractor channel inner thread topic value).exec s) := by
  rcases hx : extractor.ofRecord topic value s.activity.tape with ⟨e | found, tape⟩
  · rw [exec_announcing_of_error hx]
    exact .kept (fun _ => nofun) (Activity.reports_of_log_eq rfl)
  · rw [exec_announcing_of_ok hx]
    have hdrawn : s.activity.Reports [] (s.drawn tape).activity := Activity.reports_of_log_eq rfl
    exact (h found (s.drawn tape)).after
      (hdrawn.trans (reports_announced channel thread topic found _))

end Serializer

/-! ## Reading -/

namespace Deserializer

variable {inner : Serde α}

/-- A plain codec loses nothing itself. -/
theorem tellsLoss_plain (hinner : inner.Plain) (thread : Thread) (topic : String)
    (data : Option Bytes) (s : Exchange) :
    TellsLoss data.isSome none .reading topic s
      ((inner.deserializer thread topic data).exec s) := by
  have hnone := hinner.reads_none_iff thread topic data s
  refine .kept (fun hgiven h => ?_)
    (Activity.reports_of_log_eq (hinner.keepsLog_deserializer thread topic data s))
  rw [hnone.mp h] at hgiven
  cases hgiven

/-- Opening over a plain codec tells of every record that cannot be decrypted. -/
theorem tellsLoss_opening (cipher : RecordCipher) (hinner : inner.Plain) (thread : Thread)
    (topic : String) (data : Option Bytes) (s : Exchange) :
    TellsLoss data.isSome (data.bind Envelope.reference?) .reading topic s
      ((opening cipher inner.deserializer thread topic data).exec s) := by
  cases data with
  | none => exact .kept nofun (Activity.reports_of_log_eq rfl)
  | some b =>
    have hcases := cipher.reports_decode b s.activity
    rw [exec_opening]
    rcases hd : (cipher.decode b).exec s.activity with ⟨y, a⟩
    rw [hd] at hcases
    obtain ⟨e, ciphertext, hb, rfl, hreports⟩ | ⟨hdecrypted, hreports⟩ := hcases
    · -- the inner codec is told that there is nothing, and reads nothing
      have hlog := hinner.keepsLog_deserializer thread topic none (s.withActivity a)
      have hnone := (hinner.reads_none_iff thread topic none (s.withActivity a)).mpr rfl
      have href : (some b).bind Envelope.reference? = some e.keyRef := by
        show (Envelope.decode b).toOption.bind Envelope.keyRef? = some e.keyRef
        rw [hb]
        rfl
      rcases hy : (inner.deserializer thread topic none).exec (s.withActivity a) with ⟨y, s₁⟩
      rw [hy] at hlog hnone
      obtain rfl : y = .ok none := hnone
      simp only [Except.toOption, hy]
      exact .lost e rfl href rfl (hreports.trans (Activity.reports_of_log_eq hlog))
    · cases y with
      | error e => exact .kept (fun _ => nofun) hreports
      | ok opened =>
        obtain ⟨x, hx⟩ := hdecrypted opened rfl
        have hlog := hinner.keepsLog_deserializer thread topic (some x) (s.withActivity a)
        have hnone := hinner.reads_none_iff thread topic (some x) (s.withActivity a)
        simp only [hx, Except.toOption]
        rcases hy : (inner.deserializer thread topic (some x)).exec (s.withActivity a)
          with ⟨e | v, s₁⟩
        · rw [hy] at hlog
          exact .kept (fun _ => nofun) (hreports.trans (Activity.reports_of_log_eq hlog))
        · rw [hy] at hlog hnone
          refine .kept (fun _ hv => ?_) (hreports.trans (Activity.reports_of_log_eq hlog))
          cases hnone.mp hv

end Deserializer

end SealedRecords
