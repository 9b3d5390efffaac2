import SealedRecords.Json.Order
import SealedRecords.Proofs.Json.FlatObjects

/-!
# Reading orders that were written

An order is written as an object with its number and its account, in this order. The
reader of orders does not know the order of the fields beforehand: it keeps what it
has read of either, so its run over a written order is described field by field,
from the closing brace backwards.

> `reads_id` and `reads_account`: the two values are read as they were written,
> whatever they are.

> `parse_render`: the text of an order is read as the order.
-/

namespace SealedRecords.Order

open Json Json.Reader

/-! ## The two values -/

theorem le_maxSignificand (id : UInt64) : id.toNat ≤ maxSignificand := by
  have hid := id.toNat_lt
  unfold maxSignificand
  omega

theorem reads_idOf (id : UInt64) (rest : Bytes) : Reads (idOf (.integer id.toNat)) [] rest id := by
  have hread : Reads (Pure.pure (UInt64.ofNat id.toNat)) [] rest id := by
    rw [UInt64.ofNat_toNat]
    exact Reads.pure id rest
  unfold idOf
  simp only [Int.natCast_nonneg, if_true]
  exact hread

/-- The number of an order is read as it was written. -/
theorem reads_id (id : UInt64) {rest : Bytes} (hend : EndsNumber rest) :
    Reads readId (Utf8.encode id.toNat.repr) rest id := by
  have hread := reads_number (le_maxSignificand id) hend
  obtain ⟨b, bs, hbytes, hdigit⟩ := exists_digit_front id.toNat
  rw [hbytes] at hread ⊢
  have htoken : Reads peekToken [] (b :: bs ++ rest) (some b) :=
    reads_token (not_isBlank_of_isDigit hdigit) _
  unfold readId
  refine htoken.bind_look ?_
  simp only [if_neg (ne_of_isDigit hdigit (show isDigit 0x2D = false from rfl)), hdigit, if_true]
  exact hread.bind_last (reads_idOf id rest)

/-- The account of an order is read as it was written. -/
theorem reads_account (s : String) (rest : Bytes) :
    Reads readAccount (Utf8.encode (JsonValue.quote s)) rest s := by
  rw [encode_quote]
  let b := (s.toList.flatMap fun c => Utf8.encode (JsonValue.escape c)) ++ [0x22]
  have htoken : Reads peekToken [] (0x22 :: b ++ rest) (some 0x22) := reads_token (by decide) _
  have hskip : Reads skip [0x22] (b ++ rest) () := reads_skip 0x22 _
  unfold readAccount
  exact htoken.bind_look (hskip.bind (reads_text s rest))

/-! ## The fields -/

section

variable {n : Nat} {first : Bool} {sign b rest : Bytes} {id : UInt64} {account : String}

/-- The field of the number, behind the sign that it follows, and then the fields behind it. -/
theorem reads_idField {known : Option String} {result : Except Issue Order}
    (hmore : Reads (moreFields first) sign (fieldBytes ("id", .nat id.toNat) ++ b ++ rest) true)
    (hend : EndsNumber (b ++ rest)) (h : Reads (readFields n false (some id) known) b rest result) :
    Reads (readFields (n + 1) first none known)
      (sign ++ (fieldBytes ("id", .nat id.toNat) ++ b)) rest result := by
  unfold readFields
  refine hmore.bind ?_
  rw [if_pos rfl]
  refine reads_name ?_
  rw [if_pos rfl, if_neg (by simp)]
  exact (reads_colon _).bind ((reads_id id hend).bind h)

/-- The field of the account, behind the sign that it follows, and then the fields behind it. -/
theorem reads_accountField {known : Option UInt64} {result : Except Issue Order}
    (hmore :
      Reads (moreFields first) sign (fieldBytes ("account", .text account) ++ b ++ rest) true)
    (h : Reads (readFields n false known (some account)) b rest result) :
    Reads (readFields (n + 1) first known none)
      (sign ++ (fieldBytes ("account", .text account) ++ b)) rest result := by
  unfold readFields
  refine hmore.bind ?_
  rw [if_pos rfl]
  refine reads_name ?_
  -- the name is compared with that of the number first
  rw [if_neg (show "account" ≠ "id" by decide), if_pos rfl, if_neg (by simp)]
  exact (reads_colon _).bind ((reads_account account _).bind h)

/-- In front of the closing brace the two values make the order. -/
theorem reads_noField (n : Nat) (id : UInt64) (account : String) (rest : Bytes) :
    Reads (readFields (n + 1) false (some id) (some account)) [] (0x7D :: rest)
      (.ok ⟨id, account⟩) := by
  unfold readFields
  exact (reads_moreFields_end false rest).bind_look (Reads.pure _ _)

end

/-! ## Whole orders -/

/-- An order as it is written. -/
def written (o : Order) : Bytes :=
  fieldBytes ("id", .nat o.id.toNat) ++ moreBytes [("account", .text o.account)]

theorem encode_toJson (o : Order) :
    Utf8.encode o.toJson.render = 0x7B :: (o.written ++ [0x7D]) := encode_object _ _

/-- Both fields are read, in the order in which they are written. -/
theorem reads_written (o : Order) {n : Nat} (hn : 2 < n) (rest : Bytes) :
    Reads (readFields n true none none) o.written (0x7D :: rest) (.ok o) := by
  -- one step for each field, and one to find that there are no more
  obtain ⟨n, rfl⟩ : ∃ m, n = m + 3 := ⟨n - 3, by omega⟩
  have hmore : moreBytes [("account", .text o.account)]
      = [0x2C] ++ (fieldBytes ("account", .text o.account) ++ []) := moreBytes_cons _ []
  have haccount : Reads (readFields (n + 2) false (some o.id) none)
      (moreBytes [("account", .text o.account)]) (0x7D :: rest) (.ok o) := by
    rw [hmore]
    exact reads_accountField (moreFields_next _ [] _) (reads_noField n o.id o.account rest)
  have hid := reads_idField (moreFields_first _ _ _) (endsNumber_moreBytes _ rest) haccount
  rwa [List.nil_append] at hid

theorem length_written (o : Order) : 2 ≤ o.written.length := by
  unfold written
  rw [fieldBytes_eq]
  simp only [List.length_append, List.length_cons]
  omega

/-- At an opening brace the fields of an order are read. -/
theorem reads_object {b rest : Bytes} {o : Order}
    (h : Reads (do closing endObject (← readFields ((← left) + 1) true none none)) b rest o) :
    Reads read (0x7B :: b) rest o := by
  have htoken : Reads peekToken [] (0x7B :: b ++ rest) (some 0x7B) := reads_token (by decide) _
  have hskip : Reads skip [0x7B] (b ++ rest) () := reads_skip 0x7B _
  unfold read
  exact htoken.bind_look (hskip.bind h)

/-- An order is read as it was written. -/
theorem reads_order (o : Order) (rest : Bytes) :
    Reads read (Utf8.encode o.toJson.render) rest o := by
  rw [encode_toJson]
  have hlength := o.length_written
  have hfields : Reads (readFields ((o.written ++ [0x7D] ++ rest).length + 1) true none none)
      o.written ([0x7D] ++ rest) (.ok o) :=
    reads_written o (by simp only [List.length_append]; omega) rest
  have hclose : Reads (closing endObject (.ok o)) [0x7D] rest o :=
    (reads_endObject rest).bind_return
  exact reads_object ((reads_left _).bind_look (hfields.bind hclose))

/-- The text of an order: the number in decimal digits and the account in quotes, without blanks. -/
def text (o : Order) : String :=
  "\x7b\"id\":" ++ o.id.toNat.repr ++ ",\"account\":" ++ JsonValue.quote o.account ++ "\x7d"

theorem render_toJson (o : Order) : o.toJson.render = o.text := by
  have hid : "\x7b\"id\":" = "\x7b" ++ (JsonValue.quote "id" ++ ":") := by decide
  have haccount : ",\"account\":" = "," ++ (JsonValue.quote "account" ++ ":") := by decide
  have hnat : (JsonValue.nat o.id.toNat).render = o.id.toNat.repr := rfl
  unfold text
  simp only [toJson, JsonValue.render, JsonValue.renderFields, String.intercalate_cons_cons,
    String.intercalate_singleton, hid, haccount, hnat, String.append_assoc]

/-- The text of an order is read as the order. -/
theorem parse_render (o : Order) : parse (Utf8.encode o.toJson.render) = .ok o := by
  have hread := readAll_of_reads (reads_order o []) fun b hb => absurd hb List.not_mem_nil
  rwa [List.append_nil] at hread

end SealedRecords.Order
