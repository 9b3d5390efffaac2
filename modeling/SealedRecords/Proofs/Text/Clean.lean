import Mathlib.Data.String.Basic
import SealedRecords.Json.Value
import SealedRecords.KeyRef
import SealedRecords.Text.Grid
import SealedRecords.Text.Quoted
import SealedRecords.Proofs.Text.Hex

/-!
# Texts without control characters

A text without control characters stays within its line, in a log as on a terminal.
This file says which of the ways in which texts are put together keep it so:

- strings side by side, and with a separator between them;
- numbers and bytes in digits, texts in quotes, JSON objects;
- tables, whose lines are then as many as the table has rows and rules.

The last one needs that a text without a line feed is one line, `splitOn_lineFeed`. The
function that splits texts goes through their bytes by positions, so this is an
induction on its own recursion.
-/

namespace SealedRecords

/-- The code points of the Unicode category Cc. -/
def IsControlCode (n : Nat) : Prop := n ≤ 0x1F ∨ (0x7F ≤ n ∧ n ≤ 0x9F)

/-- A text has no control character. -/
def Clean (s : String) : Prop := ∀ c ∈ s.toList, ¬ IsControlCode c.toNat

theorem isControl_iff {c : Char} : isControl c = true ↔ IsControlCode c.toNat := by
  simp [isControl, IsControlCode]
  omega

theorem any_isControl_eq_false_iff {s : String} : s.toList.any isControl = false ↔ Clean s := by
  rw [List.any_eq_false]
  exact forall₂_congr fun c _ => not_congr isControl_iff

instance (n : Nat) : Decidable (IsControlCode n) := inferInstanceAs (Decidable (_ ∨ _))

instance (s : String) : Decidable (Clean s) := decidable_of_iff _ any_isControl_eq_false_iff

namespace Clean

variable {s t : String} {l : List String}

theorem append (hs : Clean s) (ht : Clean t) : Clean (s ++ t) := by
  intro c hc
  rw [String.toList_append, List.mem_append] at hc
  exact hc.elim (hs c) (ht c)

theorem right_of_append (h : Clean (s ++ t)) : Clean t := by
  intro c hc
  refine h c ?_
  rw [String.toList_append, List.mem_append]
  exact Or.inr hc

theorem ite {p : Prop} [Decidable p] (hs : Clean s) (ht : Clean t) :
    Clean (if p then s else t) := by
  split
  · exact hs
  · exact ht

theorem join (h : ∀ s ∈ l, Clean s) : Clean (String.join l) := by
  intro c hc
  rw [String.toList_join, List.mem_flatMap] at hc
  obtain ⟨s, hs, hc⟩ := hc
  exact h s hs c hc

theorem intercalate (hs : Clean s) (h : ∀ t ∈ l, Clean t) : Clean (s.intercalate l) := by
  induction l with
  | nil =>
    rw [String.intercalate_nil]
    decide
  | cons t l ih =>
    rw [List.forall_mem_cons] at h
    obtain ⟨ht, hl⟩ := h
    cases l with
    | nil =>
      rw [String.intercalate_singleton]
      exact ht
    | cons u l =>
      rw [String.intercalate_cons_cons]
      exact (ht.append hs).append (ih hl)

/-- A text that is repeated stays without control characters. -/
theorem repeated (hs : Clean s) (n : Nat) : Clean (String.join (List.replicate n s)) := by
  refine Clean.join fun t ht => ?_
  rw [List.eq_of_mem_replicate ht]
  exact hs

/-! ## Digits -/

/-- A number in a base with one character for each digit. -/
theorem digits {base : Nat} (hbase : 1 < base) (hlt : base ≤ 16) (n : Nat) :
    Clean (String.ofList (Nat.toDigits base n)) := by
  have hdigit : ∀ d : Fin 16, ¬ IsControlCode (Nat.digitChar d).toNat := by decide
  induction n using Nat.strongRecOn with
  | _ n ih =>
    rw [Nat.toDigits_eq_if hbase]
    split
    case isTrue hn =>
      intro c hc
      rw [String.toList_ofList, List.mem_singleton] at hc
      rw [hc]
      exact hdigit ⟨n, by omega⟩
    case isFalse hn =>
      have hmod := Nat.mod_lt n (Nat.zero_lt_of_lt hbase)
      intro c hc
      rw [String.toList_ofList, List.mem_append, List.mem_singleton] at hc
      rcases hc with hc | hc
      · have hsmaller := ih (n / base) (Nat.div_lt_self (by omega) hbase)
        exact hsmaller c (by rwa [String.toList_ofList])
      · rw [hc]
        exact hdigit ⟨n % base, by omega⟩

/-- A number in decimal. -/
theorem number (n : Nat) : Clean (toString n) := by
  have hdigits := Clean.digits (by decide : 1 < 10) (by decide) n
  rw [← Nat.toList_repr, String.ofList_toList] at hdigits
  exact hdigits

/-- Bytes in hexadecimal. -/
theorem hex (b : Bytes) : Clean (Hex.encode b) := by
  intro c hc
  rw [Hex.encode, String.toList_ofList] at hc
  obtain ⟨n, hdigit⟩ := (Hex.spells_encodeChars b).isDigit c hc
  simp only [Hex.IsDigit, Char.reduceToNat] at hdigit
  unfold IsControlCode
  omega

/-! ## Quotes -/

theorem singleton {c : Char} (h : c ∈ s.toList) (hs : Clean s) : Clean (String.singleton c) := by
  intro d hd
  rw [String.toList_singleton, List.mem_singleton] at hd
  rw [hd]
  exact hs c h

/-- A text in quotes is clean if what stands for each character is. -/
theorem inQuotes {escape : Char → String} (h : ∀ c ∈ s.toList, Clean (escape c)) :
    Clean ("\"" ++ String.join (s.toList.map escape) ++ "\"") := by
  have hquote : Clean "\"" := by decide
  exact (hquote.append (.join (List.forall_mem_map.mpr h))).append hquote

theorem quoted (hs : Clean s) : Clean (Quoted.text s) := by
  refine Clean.inQuotes fun c hc => ?_
  unfold Quoted.escape
  have hc := Clean.singleton hc hs
  have hcode : Clean (Quoted.hexDigits c.toNat) := Clean.digits (by decide) (by decide) c.toNat
  have hmarked : Clean (String.ofList ['\\', c]) := by
    intro d hd
    rw [String.toList_ofList, List.mem_cons] at hd
    rcases hd with rfl | hd
    · decide
    · exact hc d (by rwa [String.toList_singleton])
  refine .ite hmarked (.ite ?_ (.ite ?_ (.ite ?_ (.ite ?_ (.ite ?_ hc)))))
  · decide
  · decide
  · decide
  · decide
  · exact ((by decide : Clean "\\u\x7b").append hcode).append (by decide)

theorem jsonQuoted (hs : Clean s) : Clean (JsonValue.quote s) := by
  refine Clean.inQuotes fun c hc => ?_
  unfold JsonValue.escape
  have hcode : Clean ("\\u00" ++ Hex.encode [UInt8.ofNat c.toNat]) :=
    Clean.append (by decide) (Clean.hex _)
  refine .ite ?_ (.ite ?_ (.ite ?_ (.ite ?_ (.ite ?_ (.ite ?_ (.ite ?_
    (.ite hcode (Clean.singleton hc hs))))))))
  all_goals decide

/-- An object with clean names and values is a clean text. -/
theorem jsonObject {fields : List (String × JsonValue)}
    (h : ∀ f ∈ fields, Clean f.1 ∧ Clean f.2.render) : Clean (JsonValue.object fields).render := by
  have hfields : ∀ t ∈ JsonValue.renderFields fields, Clean t := by
    induction fields with
    | nil => exact List.forall_mem_nil _
    | cons f fields ih =>
      rw [List.forall_mem_cons] at h
      obtain ⟨⟨hname, hvalue⟩, hrest⟩ := h
      unfold JsonValue.renderFields
      rw [List.forall_mem_cons]
      exact ⟨(hname.jsonQuoted.append (by decide)).append hvalue, ih hrest⟩
  rw [JsonValue.render]
  exact (Clean.append (by decide) (.intercalate (by decide) hfields)).append (by decide)

theorem jsonNumber (n : Nat) : Clean (JsonValue.nat n).render := by
  rw [JsonValue.nat, JsonValue.render]
  exact Clean.number n

theorem jsonText (hs : Clean s) : Clean (JsonValue.text s).render := by
  rw [JsonValue.render]
  exact hs.jsonQuoted

/-- A text or null. -/
theorem jsonText? {s : Option String} (h : ∀ t ∈ s, Clean t) :
    Clean (JsonValue.text? s).render := by
  cases s with
  | none =>
    rw [JsonValue.text?, JsonValue.render]
    decide
  | some t => exact (h t rfl).jsonText

end Clean

/-! ## Lines -/

namespace Lines

open String.Pos.Raw (extract)

variable {cs : List Char} {i e : String.Pos.Raw} {s : String}

/-- What a position of a text holds is one of its characters, or `A` outside of it. -/
theorem mem_of_getAux (cs : List Char) (i p : String.Pos.Raw) :
    String.Pos.Raw.utf8GetAux cs i p ∈ cs ∨ String.Pos.Raw.utf8GetAux cs i p = 'A' := by
  induction cs generalizing i with
  | nil => exact Or.inr rfl
  | cons c cs ih =>
    rw [String.Pos.Raw.utf8GetAux]
    split
    · exact Or.inl List.mem_cons_self
    · exact (ih (i + c)).imp_left (List.mem_cons_of_mem c)

/-- Up to a position behind its end a text is whole. -/
theorem extract_go₂ (h : i.byteIdx + (String.ofList cs).utf8ByteSize ≤ e.byteIdx) :
    extract.go₂ cs i e = cs := by
  induction cs generalizing i with
  | nil => rfl
  | cons c cs ih =>
    have hc := c.utf8Size_pos
    rw [String.ofList_cons, String.utf8ByteSize_append, String.utf8ByteSize_singleton] at h
    have hne : i ≠ e := by
      intro hie
      subst hie
      omega
    rw [extract.go₂, if_neg hne]
    refine congrArg (c :: ·) (ih ?_)
    rw [String.Pos.Raw.byteIdx_add_char]
    omega

theorem extract_whole (h : s.utf8ByteSize ≤ e.byteIdx) : extract s 0 e = s := by
  unfold extract
  show (if 0 ≥ e.byteIdx then "" else String.ofList (extract.go₁ s.toList 0 0 e)) = s
  split
  case isTrue hempty =>
    exact (String.utf8ByteSize_eq_zero_iff.mp (by omega)).symm
  case isFalse =>
    have hgo : extract.go₁ s.toList 0 0 e = s.toList := by
      have hsize : (String.ofList s.toList).utf8ByteSize ≤ e.byteIdx := by
        rwa [String.ofList_toList]
      cases hcs : s.toList with
      | nil => rfl
      | cons c cs =>
        rw [hcs] at hsize
        rw [extract.go₁, if_pos rfl]
        exact extract_go₂ (by rwa [String.Pos.Raw.byteIdx_zero, Nat.zero_add])
    rw [hgo, String.ofList_toList]

/-- A text without a line feed is one line. -/
theorem splitOn_lineFeed (h : '\n' ∉ s.toList) : s.splitOn "\n" = [s] := by
  -- the search goes through the positions of `s` and never finds the first byte of a line feed
  have hsearch : ∀ b i j r, b = 0 → j = 0 → r = [] → s.splitOnAux "\n" b i j r = [s] := by
    intro b i j r
    induction b, i, j, r using String.splitOnAux.induct s "\n" with
    | case1 b i j r hend =>
      intro hb hj hr
      subst hb hr
      rw [String.splitOnAux, if_pos hend]
      have hbehind : s.utf8ByteSize ≤ i.byteIdx := of_decide_eq_true hend
      rw [extract_whole hbehind]
      rfl
    | case2 b i j r hend hfound | case3 b i j r hend hfound =>
      intro hb hj hr
      subst hj
      have hget : String.Pos.Raw.get s i = '\n' := by
        rw [eq_of_beq hfound]
        decide
      rcases mem_of_getAux s.toList 0 i with hmem | hout
      · exact absurd (hget ▸ hmem) h
      · exact absurd (hget.symm.trans hout) (by decide)
    | case4 b i j r hend hfound ih =>
      intro hb hj hr
      rw [String.splitOnAux, if_neg hend, if_neg hfound]
      exact ih hb rfl hr
  rw [String.splitOn, if_neg (by decide)]
  exact hsearch 0 0 0 [] rfl rfl rfl

end Lines

namespace Grid

variable {widths : List Nat} {row headings : List String} {s left stroke cross right : String}

theorem cellLines_of_clean (h : Clean s) : cellLines s = [s] :=
  Lines.splitOn_lineFeed fun hmem => h _ hmem (by decide)

theorem clean_rule (hleft : Clean left) (hstroke : Clean stroke) (hcross : Clean cross)
    (hright : Clean right) : Clean (rule left stroke cross right widths) := by
  have hstrokes : ∀ t ∈ widths.map fun w => String.join (List.replicate (w + 2) stroke), Clean t :=
    List.forall_mem_map.mpr fun w _ => hstroke.repeated (w + 2)
  exact (hleft.append (hcross.intercalate hstrokes)).append hright

theorem clean_pad (hs : Clean s) (w : Nat) : Clean (pad w s) :=
  hs.append (Clean.repeated (by decide) _)

/-- A row of clean cells is one clean line. -/
theorem exists_rowLines (widths : List Nat) (hne : row ≠ []) (h : ∀ s ∈ row, Clean s) :
    ∃ l, rowLines widths row = [l] ∧ Clean l := by
  have hcells : row.map cellLines = row.map fun s => [s] :=
    List.map_congr_left fun s hs => cellLines_of_clean (h s hs)
  have hones : ∀ l : List String, (l.map fun _ => 1).foldl max 1 = 1 := by
    intro l
    induction l with
    | nil => rfl
    | cons s l ih => exact ih
  have hheight : ((row.map fun s => [s]).map List.length).foldl max 0 = 1 := by
    cases row with
    | nil => exact absurd rfl hne
    | cons s l =>
      rw [List.map_map]
      exact hones l
  unfold rowLines
  simp only [hcells, hheight]
  refine ⟨_, rfl, Clean.append (Clean.append (by decide) (.intercalate (by decide) ?_)) (by decide)⟩
  intro t ht
  obtain ⟨⟨w, c⟩, hwc, rfl⟩ := List.mem_map.mp ht
  obtain ⟨s, hs, rfl⟩ := List.mem_map.mp (List.of_mem_zip hwc).2
  exact (Clean.append (by decide) (clean_pad (h s hs) w)).append (by decide)

/-- A table with one row of clean cells has five lines. -/
theorem exists_render (hrow : row ≠ []) (hheadings : headings ≠ [])
    (h : ∀ s ∈ row, Clean s) (h' : ∀ s ∈ headings, Clean s) :
    ∃ ls, ls.length = 5 ∧ (∀ l ∈ ls, Clean l) ∧ render headings [row] = "\n".intercalate ls := by
  obtain ⟨top, htop, hcleanTop⟩ := exists_rowLines (columnWidths [headings, row]) hheadings h'
  obtain ⟨body, hbody, hcleanBody⟩ := exists_rowLines (columnWidths [headings, row]) hrow h
  refine ⟨_, ?_, ?_, by rw [render, htop, bodyLines, hbody]⟩
  · rfl
  · simp only [List.cons_append, List.nil_append, List.forall_mem_cons]
    refine ⟨?_, hcleanTop, ?_, hcleanBody, ?_, List.forall_mem_nil _⟩
    all_goals exact clean_rule (by decide) (by decide) (by decide) (by decide)

end Grid

end SealedRecords
