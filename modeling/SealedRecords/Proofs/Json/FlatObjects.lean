import SealedRecords.Proofs.Json.Reading
import SealedRecords.Proofs.Keys.NameMaps

/-!
# Flat objects

The objects that are printed for programs are flat: their fields are texts, whole
numbers of 64 bits, or null. Such an object, printed on a line of its own, is read
back with its fields in the order of the bytes of their names. So whoever reads
the line gets each field as it was before printing, unless a later field has the
same name.
-/

namespace SealedRecords.Json

open SealedRecords Reader

/-- A value without parts: null, a text or a whole number of 64 bits. -/
inductive IsFlat : JsonValue → Prop
  | null : IsFlat .null
  | text (s : String) : IsFlat (.text s)
  | nat {n : Nat} (h : n ≤ maxSignificand) : IsFlat (.nat n)

theorem IsFlat.text? (s : Option String) : IsFlat (.text? s) := by
  cases s with
  | none => exact .null
  | some s => exact .text s

/-! ## Values -/

theorem encode_join (l : List String) : Utf8.encode (String.join l) = l.flatMap Utf8.encode := by
  induction l with
  | nil => rfl
  | cons s l ih => rw [String.join_cons, Utf8.encode_append, ih, List.flatMap_cons]

theorem encode_quote (s : String) : Utf8.encode (JsonValue.quote s) =
    0x22 :: ((s.toList.flatMap fun c => Utf8.encode (JsonValue.escape c)) ++ [0x22]) := by
  have hquote : Utf8.encode "\"" = [0x22] := by decide
  unfold JsonValue.quote
  rw [Utf8.encode_append, Utf8.encode_append, encode_join, List.flatMap_map, hquote]
  rfl

theorem exists_digit_front (n : Nat) :
    ∃ b bs, Utf8.encode n.repr = b :: bs ∧ isDigit b = true := by
  unfold Utf8.encode
  rw [Nat.toList_repr]
  cases hds : Nat.toDigits 10 n with
  | nil => exact absurd hds Nat.toDigits_ne_nil
  | cons c ds =>
    have hc : c.isDigit = true :=
      Nat.isDigit_of_mem_toDigits (by decide) (by decide) (hds ▸ List.mem_cons_self)
    obtain ⟨b, hb, hdigit, -⟩ := encodeChar_digit hc
    rw [List.flatMap_cons, hb]
    exact ⟨b, _, rfl, hdigit⟩

theorem ne_of_isDigit {b x : UInt8} (hb : isDigit b = true) (hx : isDigit x = false) : b ≠ x := by
  intro h
  rw [h, hx] at hb
  cases hb

/-- A digit is no blank. -/
theorem not_isBlank_of_isDigit {b : UInt8} (hb : isDigit b = true) : isBlank b = false := by
  have hother : ∀ {x : UInt8}, isDigit x = false → b ≠ x := ne_of_isDigit hb
  unfold isBlank
  simp only [hother (show isDigit 0x20 = false from rfl),
    hother (show isDigit 0x0A = false from rfl), hother (show isDigit 0x09 = false from rfl),
    hother (show isDigit 0x0D = false from rfl), decide_false, Bool.or_false]

theorem reads_word (w rest : Bytes) : Reads (word w) w rest () := by
  induction w with
  | nil => exact Reads.pure () rest
  | cons b w ih =>
    unfold word
    refine (reads_next b (w ++ rest)).bind ?_
    simp only [if_true]
    exact ih

variable {depth : Nat} {v : JsonValue} {rest : Bytes}

theorem value_null (rest : Bytes) :
    Reads (value depth) [0x6E, 0x75, 0x6C, 0x6C] rest .null := by
  have htoken : Reads peekToken [] ([0x6E, 0x75, 0x6C, 0x6C] ++ rest) (some 0x6E) :=
    reads_token (by decide) _
  have hskip : Reads skip [0x6E] ([0x75, 0x6C, 0x6C] ++ rest) () := reads_skip 0x6E _
  unfold value
  exact htoken.bind_look (hskip.bind (reads_word _ rest).bind_return)

theorem value_text (s : String) (rest : Bytes) :
    Reads (value depth) (Utf8.encode (JsonValue.quote s)) rest (.text s) := by
  rw [encode_quote]
  let b := (s.toList.flatMap fun c => Utf8.encode (JsonValue.escape c)) ++ [0x22]
  have htoken : Reads peekToken [] (0x22 :: b ++ rest) (some 0x22) := reads_token (by decide) _
  have hskip : Reads skip [0x22] (b ++ rest) () := reads_skip 0x22 _
  unfold value
  exact htoken.bind_look (hskip.bind (reads_text s rest).bind_return)

theorem value_nat {n : Nat} (hn : n ≤ maxSignificand) (hend : EndsNumber rest) :
    Reads (value depth) (Utf8.encode n.repr) rest (.nat n) := by
  have hread := reads_number hn hend
  obtain ⟨b, bs, hbytes, hdigit⟩ := exists_digit_front n
  rw [hbytes] at hread ⊢
  have hother : ∀ {x : UInt8}, isDigit x = false → b ≠ x := ne_of_isDigit hdigit
  have htoken : Reads peekToken [] (b :: bs ++ rest) (some b) :=
    reads_token (not_isBlank_of_isDigit hdigit) _
  unfold value
  refine htoken.bind_look ?_
  simp only [if_neg (hother (show isDigit 0x6E = false from rfl)),
    if_neg (hother (show isDigit 0x74 = false from rfl)),
    if_neg (hother (show isDigit 0x66 = false from rfl)),
    if_neg (hother (show isDigit 0x2D = false from rfl)), hdigit, if_true]
  exact hread.bind_return

/-- A value without parts is read as it was printed. -/
theorem reads_flat (hv : IsFlat v) (hend : EndsNumber rest) :
    Reads (value depth) (Utf8.encode v.render) rest v := by
  cases hv with
  | null =>
    have hbytes : Utf8.encode "null" = [0x6E, 0x75, 0x6C, 0x6C] := by decide
    rw [JsonValue.render, hbytes]
    exact value_null rest
  | text s =>
    rw [JsonValue.render]
    exact value_text s rest
  | nat h => exact value_nat h hend

/-! ## Fields -/

theorem reads_moreFields_first (rest : Bytes) :
    Reads (moreFields true) [] (0x22 :: rest) true := by
  unfold moreFields
  refine (reads_token (by decide) rest).bind_look ?_
  exact Reads.pure true _

theorem reads_moreFields_next (rest : Bytes) :
    Reads (moreFields false) [0x2C] (0x22 :: rest) true := by
  unfold moreFields
  refine (reads_token (by decide) (0x22 :: rest)).bind_look ?_
  refine (reads_skip 0x2C (0x22 :: rest)).bind_last ?_
  exact (reads_token (by decide) rest).bind_last (Reads.pure true _)

theorem reads_moreFields_end (first : Bool) (rest : Bytes) :
    Reads (moreFields first) [] (0x7D :: rest) false := by
  unfold moreFields
  refine (reads_token (by decide) rest).bind_look ?_
  exact Reads.pure false _

theorem reads_colon (rest : Bytes) : Reads colon [0x3A] rest () := by
  unfold colon
  refine (reads_token (by decide) rest).bind_look ?_
  exact reads_skip 0x3A rest

theorem reads_endObject (rest : Bytes) : Reads endObject [0x7D] rest () := by
  unfold endObject
  refine (reads_token (by decide) rest).bind_look ?_
  exact reads_skip 0x7D rest

/-- A field as it is printed. -/
def fieldBytes (f : String × JsonValue) : Bytes :=
  Utf8.encode (JsonValue.quote f.1) ++ 0x3A :: Utf8.encode f.2.render

theorem fieldBytes_eq (f : String × JsonValue) : fieldBytes f =
    0x22 :: ((f.1.toList.flatMap fun c => Utf8.encode (JsonValue.escape c)) ++ [0x22] ++
      0x3A :: Utf8.encode f.2.render) := by
  unfold fieldBytes
  rw [encode_quote, List.cons_append]

/-- Another field follows at the first field of an object. -/
theorem moreFields_first (f : String × JsonValue) (b rest : Bytes) :
    Reads (moreFields true) [] (fieldBytes f ++ b ++ rest) true := by
  rw [fieldBytes_eq, List.cons_append, List.cons_append]
  exact reads_moreFields_first _

/-- Another field follows at a comma and the field behind it. -/
theorem moreFields_next (f : String × JsonValue) (b rest : Bytes) :
    Reads (moreFields false) [0x2C] (fieldBytes f ++ b ++ rest) true := by
  rw [fieldBytes_eq, List.cons_append, List.cons_append]
  exact reads_moreFields_next _

/-- At a field its name is read, in front of the colon. -/
theorem reads_name {f : String × JsonValue} {b : Bytes} {k : String → Reader α} {a : α}
    (h : Reads (k f.1) (0x3A :: Utf8.encode f.2.render ++ b) rest a) :
    Reads (do
        skip
        k (← text)) (fieldBytes f ++ b) rest a := by
  rw [fieldBytes_eq, List.cons_append, List.append_assoc]
  exact (reads_skip 0x22 _).bind ((reads_text f.1 _).bind h)

/-- Fields as they are printed behind another one. -/
def moreBytes (fs : List (String × JsonValue)) : Bytes := fs.flatMap fun f => 0x2C :: fieldBytes f

theorem moreBytes_cons (f : String × JsonValue) (fs : List (String × JsonValue)) :
    moreBytes (f :: fs) = [0x2C] ++ (fieldBytes f ++ moreBytes fs) := by
  unfold moreBytes
  rw [List.flatMap_cons, List.cons_append, List.singleton_append]

/-- The fields that are known after more of them were read. -/
def fieldsRead (fs known : List (String × JsonValue)) : List (String × JsonValue) :=
  fs.foldl (fun known f => NameMap.put f.1 f.2 known) known

/-- A field that does not occur among those that are read is what it was. -/
theorem get?_fieldsRead_of_not_mem {fs known : List (String × JsonValue)} {name : String}
    (h : name ∉ fs.map Prod.fst) :
    NameMap.get? (fieldsRead fs known) name = NameMap.get? known name := by
  induction fs generalizing known with
  | nil => rfl
  | cons f fs ih =>
    rw [List.map_cons, List.mem_cons, not_or] at h
    obtain ⟨hne, hrest⟩ := h
    show NameMap.get? (fieldsRead fs (NameMap.put f.1 f.2 known)) name = _
    rw [ih hrest, NameMap.get?_put_of_ne (Ne.symm hne)]

/-- Every field of an object with different names is found in what was read. -/
theorem get?_fieldsRead {fs : List (String × JsonValue)} (hnames : (fs.map Prod.fst).Nodup)
    {f : String × JsonValue} (hf : f ∈ fs) (known : List (String × JsonValue)) :
    NameMap.get? (fieldsRead fs known) f.1 = some f.2 := by
  induction fs generalizing known with
  | nil => exact absurd hf List.not_mem_nil
  | cons g fs ih =>
    obtain ⟨hg, hnames⟩ := List.nodup_cons.mp hnames
    show NameMap.get? (fieldsRead fs (NameMap.put g.1 g.2 known)) f.1 = _
    rcases List.mem_cons.mp hf with rfl | hf
    · rw [get?_fieldsRead_of_not_mem hg, NameMap.get?_put_self]
    · exact ih hnames hf _

theorem length_le_moreBytes (fs : List (String × JsonValue)) :
    fs.length ≤ (moreBytes fs).length := by
  induction fs with
  | nil => exact Nat.le_refl 0
  | cons f fs ih =>
    rw [moreBytes_cons, List.length_cons, List.length_append, List.length_append,
      List.length_singleton]
    omega

theorem endsNumber_moreBytes (fs : List (String × JsonValue)) (rest : Bytes) :
    EndsNumber (moreBytes fs ++ 0x7D :: rest) := by
  intro b hb
  cases fs with
  | nil =>
    obtain rfl : 0x7D = b := Option.some.inj hb
    decide
  | cons f fs =>
    obtain rfl : 0x2C = b := Option.some.inj hb
    decide

/-- What is read behind the sign that a field follows: the field, and then the fields behind it. -/
theorem reads_field {f : String × JsonValue} (hf : IsFlat f.2) {fs : List (String × JsonValue)}
    {n : Nat} {known : List (String × JsonValue)}
    (h : Reads (fields (value depth) n false (NameMap.put f.1 f.2 known)) (moreBytes fs)
      (0x7D :: rest) (fieldsRead (f :: fs) known)) :
    Reads (do
        skip
        let name ← text
        colon
        let v ← value depth
        fields (value depth) n false (NameMap.put name v known))
      (fieldBytes f ++ moreBytes fs) (0x7D :: rest) (fieldsRead (f :: fs) known) := by
  have hend := endsNumber_moreBytes fs rest
  refine reads_name ?_
  refine (reads_colon (Utf8.encode f.2.render ++ moreBytes fs ++ 0x7D :: rest)).bind ?_
  exact (reads_flat hf hend).bind h

/-- The fields behind another one are read up to the end of the object. -/
theorem reads_moreFields {fs : List (String × JsonValue)} (hfs : ∀ f ∈ fs, IsFlat f.2) {n : Nat}
    (hn : fs.length < n) (known : List (String × JsonValue)) (rest : Bytes) :
    Reads (fields (value depth) n false known) (moreBytes fs) (0x7D :: rest)
      (fieldsRead fs known) := by
  induction fs generalizing n known with
  | nil =>
    obtain ⟨n, rfl⟩ : ∃ m, n = m + 1 := ⟨n - 1, by rw [List.length_nil] at hn; omega⟩
    unfold fields
    refine (reads_moreFields_end false rest).bind_look ?_
    exact Reads.pure known _
  | cons f fs ih =>
    obtain ⟨n, rfl⟩ : ∃ m, n = m + 1 := ⟨n - 1, by rw [List.length_cons] at hn; omega⟩
    have hrest := ih (fun f hf => hfs f (List.mem_cons_of_mem _ hf)) (Nat.lt_of_succ_lt_succ hn)
      (NameMap.put f.1 f.2 known)
    unfold fields
    have hfield := reads_field (hfs f List.mem_cons_self) hrest
    rw [moreBytes_cons]
    exact (moreFields_next f (moreBytes fs) (0x7D :: rest)).bind hfield

/-! ## Objects -/

theorem encode_intercalate (f : String × JsonValue) (fs : List (String × JsonValue)) :
    Utf8.encode (",".intercalate (JsonValue.renderFields (f :: fs)))
      = fieldBytes f ++ moreBytes fs := by
  have hcomma : Utf8.encode "," = [0x2C] := by decide
  have hcolon : Utf8.encode ":" = [0x3A] := by decide
  have hfield : ∀ f : String × JsonValue,
      Utf8.encode (JsonValue.quote f.1 ++ ":" ++ f.2.render) = fieldBytes f := by
    intro f
    rw [Utf8.encode_append, Utf8.encode_append, List.append_assoc, hcolon]
    rfl
  induction fs generalizing f with
  | nil =>
    simp only [JsonValue.renderFields, String.intercalate_singleton]
    rw [hfield, moreBytes, List.flatMap_nil, List.append_nil]
  | cons g fs ih =>
    have hg := ih g
    simp only [JsonValue.renderFields] at hg ⊢
    rw [String.intercalate_cons_cons, Utf8.encode_append, Utf8.encode_append, hg, hfield, hcomma,
      List.append_assoc, moreBytes_cons]

theorem encode_object (f : String × JsonValue) (fs : List (String × JsonValue)) :
    Utf8.encode (JsonValue.object (f :: fs)).render
      = 0x7B :: (fieldBytes f ++ moreBytes fs ++ [0x7D]) := by
  have hopen : Utf8.encode "\x7b" = [0x7B] := by decide
  have hclose : Utf8.encode "\x7d" = [0x7D] := by decide
  simp only [JsonValue.render]
  rw [Utf8.encode_append, Utf8.encode_append, encode_intercalate, hopen, hclose,
    List.singleton_append, List.cons_append]

/-- At an opening brace an object is read. -/
theorem value_object {b : Bytes} {a : JsonValue}
    (h : Reads (do
        let fs ← fields (value depth) (← left) true []
        endObject
        return .object fs) b rest a) : Reads (value (depth + 1)) (0x7B :: b) rest a := by
  have htoken : Reads peekToken [] (0x7B :: b ++ rest) (some 0x7B) := reads_token (by decide) _
  have hskip : Reads skip [0x7B] (b ++ rest) () := reads_skip 0x7B _
  unfold value
  exact htoken.bind_look (hskip.bind h)

/-- An object with flat fields is read with its fields in order. -/
theorem reads_object {f : String × JsonValue} {fs : List (String × JsonValue)}
    (hfs : ∀ g ∈ f :: fs, IsFlat g.2) (rest : Bytes) :
    Reads (value (depth + 1)) (Utf8.encode (JsonValue.object (f :: fs)).render) rest
      (.object (fieldsRead (f :: fs) [])) := by
  have hlength := length_le_moreBytes fs
  have hfields : Reads (fields (value depth) (fieldBytes f ++ moreBytes fs ++ 0x7D :: rest).length
      true []) (fieldBytes f ++ moreBytes fs) ([0x7D] ++ rest) (fieldsRead (f :: fs) []) := by
    rw [List.singleton_append]
    have hfirst := moreFields_first f (moreBytes fs) (0x7D :: rest)
    obtain ⟨n, hn⟩ : ∃ n, (fieldBytes f ++ moreBytes fs ++ 0x7D :: rest).length = n + 1 :=
      ⟨(fieldBytes f ++ moreBytes fs ++ rest).length, by simp; omega⟩
    have hn' : fs.length < n := by
      rw [fieldBytes_eq] at hn
      simp only [List.length_append, List.length_cons] at hn
      omega
    have hmore : Reads (fields (value depth) n false (NameMap.put f.1 f.2 [])) (moreBytes fs)
        (0x7D :: rest) (fieldsRead (f :: fs) []) :=
      reads_moreFields (fun g hg => hfs g (List.mem_cons_of_mem _ hg)) hn' _ rest
    rw [hn]
    unfold fields
    exact hfirst.bind_look (reads_field (hfs f List.mem_cons_self) hmore)
  rw [encode_object]
  have hleft := reads_left (fieldBytes f ++ moreBytes fs ++ 0x7D :: rest)
  refine value_object ?_
  have hall : fieldBytes f ++ moreBytes fs ++ [0x7D] ++ rest
      = fieldBytes f ++ moreBytes fs ++ 0x7D :: rest := by simp
  rw [← hall] at hleft
  refine hleft.bind_look ?_
  rw [hall]
  have hend : Reads (endObject >>= fun _ => return JsonValue.object (fieldsRead (f :: fs) []))
      [0x7D] rest (.object (fieldsRead (f :: fs) [])) := (reads_endObject rest).bind_return
  exact Reads.bind hfields hend

/-- An object with flat fields on a line of its own is read with its fields in order. -/
theorem parse_object {f : String × JsonValue} {fs : List (String × JsonValue)}
    (hfs : ∀ g ∈ f :: fs, IsFlat g.2) :
    parse (Utf8.encode ((JsonValue.object (f :: fs)).render ++ "\n"))
      = .ok (.object (fieldsRead (f :: fs) [])) := by
  have hline : Utf8.encode "\n" = [0x0A] := by decide
  rw [Utf8.encode_append, hline]
  have hblank : ∀ b ∈ [0x0A], isBlank b = true := List.forall_mem_singleton.mpr rfl
  exact readAll_of_reads (reads_object hfs [0x0A]) hblank

end SealedRecords.Json
