import SealedRecords.Codec
import SealedRecords.Proofs.Json.Orders

/-!
# The payload codecs

The codecs of the library carry bytes, texts and orders. Each of them is made of a
function that writes and one that reads, so what is said of the headers and of absent
values is said once, for all codecs that are made in this way. What is left for each
codec is that reading undoes writing, and there the text codec can say more: which bytes
it refuses, and how far it has read them.

> `faithful_ofFunctions`: a codec is faithful if its reader undoes its writer.
-/

namespace SealedRecords

/-- What a computation of a codec ends with on headers, and the headers that it leaves. -/
def CodecM.exec (x : CodecM α) (h : Headers) : Except SerdeError α × Headers := x.run.run h

namespace Codec

/-- A codec writes every value as `write` does, reads what it has written as the value, passes
absence through both ways, and leaves the headers alone, also when it refuses what it reads. -/
structure Faithful (c : Codec α) (write : α → Bytes) : Prop where
  writes : ∀ topic v h, (c.serialize topic (some v)).exec h = (.ok (some (write v)), h)
  reads_back : ∀ topic v h, (c.deserialize topic (some (write v))).exec h = (.ok (some v), h)
  writes_none : ∀ topic h, (c.serialize topic none).exec h = (.ok none, h)
  reads_none : ∀ topic h, (c.deserialize topic none).exec h = (.ok none, h)
  keeps_headers : ∀ topic b h, ((c.deserialize topic b).exec h).2 = h

section

variable {write : α → Bytes} {read : Bytes → Except SerdeError α}

/-- What is read of bytes that are present, the headers left alone. -/
theorem exec_deserialize_ofFunctions (topic : String) (b : Bytes) (h : Headers) :
    ((ofFunctions write read).deserialize topic (some b)).exec h = ((read b).map some, h) := by
  simp only [ofFunctions]
  cases read b <;> rfl

theorem faithful_ofFunctions (hread : ∀ v, read (write v) = .ok v) :
    (ofFunctions write read).Faithful write where
  writes := fun _ _ _ => rfl
  reads_back := by
    intro topic v h
    rw [exec_deserialize_ofFunctions, hread]
    rfl
  writes_none := fun _ _ => rfl
  reads_none := fun _ _ => rfl
  keeps_headers := by
    intro topic b h
    cases b with
    | none => rfl
    | some b => rw [exec_deserialize_ofFunctions]

end

/-! ## Each codec -/

theorem faithful_bytes : bytes.Faithful id := faithful_ofFunctions fun _ => rfl

theorem readText_of_encode (s : String) : readText (Utf8.encode s) = .ok s := by
  unfold readText
  rw [Utf8.decode_encode]

theorem faithful_text : text.Faithful Utf8.encode := faithful_ofFunctions readText_of_encode

theorem faithful_order : order.Faithful fun o => Utf8.encode o.text := by
  have hwrite : (fun o : Order => Utf8.encode o.toJson.render) = fun o => Utf8.encode o.text := by
    funext o
    rw [Order.render_toJson]
  rw [← hwrite]
  refine faithful_ofFunctions ?_
  intro o
  rw [Order.parse_render]

/-- Bytes are refused as a text with the length of the longest text that they begin with. -/
theorem readText_cases (b : Bytes) : (∃ s, b = Utf8.encode s ∧ readText b = .ok s) ∨
    ∃ e, readText b = .error (.utf8 e) ∧ Utf8.LongestText b e.index := by
  unfold readText
  cases hb : Utf8.decode b with
  | ok s => exact Or.inl ⟨s, Utf8.decode_eq_ok_iff.mp hb, rfl⟩
  | error e => exact Or.inr ⟨e, rfl, Utf8.longestText_of_decode hb⟩

theorem readText_eq_ok_iff {b : Bytes} {s : String} : readText b = .ok s ↔ b = Utf8.encode s := by
  constructor
  · intro h
    obtain ⟨t, hb, ht⟩ | ⟨e, he, -⟩ := readText_cases b
    · rw [ht] at h
      rw [hb, Except.ok.inj h]
    · rw [he] at h
      cases h
  · intro h
    rw [h, readText_of_encode]

/-- **The payload codecs are faithful.** Bytes, texts and orders are written always, and read back
as they were from what was written: bytes as they are, texts in UTF-8, orders as compact JSON.
Absence stays absence both ways, and no call changes the headers, not even one that fails. The
text codec reads exactly the UTF-8 form of a text as the text. All other bytes are refused, and the
index of the fault is the length of the longest text that they begin with. -/
theorem payload_codecs_faithful :
    bytes.Faithful id ∧ text.Faithful Utf8.encode ∧
    (order.Faithful fun o => Utf8.encode o.text) ∧
    (∀ topic b h s, ((text.deserialize topic (some b)).exec h).1 = .ok (some s) ↔
      b = Utf8.encode s) ∧
    ∀ topic b h, (∃ s, b = Utf8.encode s) ∨
      ∃ e, ((text.deserialize topic (some b)).exec h).1 = .error (.utf8 e) ∧
        Utf8.LongestText b e.index := by
  have hexec : ∀ topic b h,
      ((text.deserialize topic (some b)).exec h).1 = (readText b).map some :=
    fun topic b h => congrArg Prod.fst (exec_deserialize_ofFunctions topic b h)
  refine ⟨faithful_bytes, faithful_text, faithful_order, ?_, ?_⟩
  · intro topic b h s
    rw [hexec, ← readText_eq_ok_iff]
    cases readText b with
    | ok t => simp [Except.map]
    | error e => simp [Except.map]
  · intro topic b h
    rw [hexec]
    obtain ⟨s, hb, -⟩ | ⟨e, he, hlongest⟩ := readText_cases b
    · exact Or.inl ⟨s, hb⟩
    · refine Or.inr ⟨e, ?_, hlongest⟩
      rw [he]
      rfl

example : (text.deserialize "orders" (some [0x68, 0xC3, 0xA9, 0xE2, 0x82])).exec {}
    = (.error (.utf8 ⟨3, none⟩), {}) := by rfl

end Codec

end SealedRecords
