import XPathBench.Proofs.Text.Lines

/-!
# Texts by their bytes

Offsets count the bytes of a text in UTF-8. What stands between two of them is a part of the text if
both lie between characters.

* `Text.slice?`: the part of a text between two offsets
* `slice?_eq_some_iff`: which parts these are
* `firstOffset?`, `runBytes`: the offset of the first character of a kind
* `getElem?_toByteArray_eq_iff`: where a character of one byte is found by its byte
-/

namespace XPathBench.Text

/-- The part of a text between two byte offsets. There is one if neither offset lies behind the text
or inside a character, and the first one does not lie behind the second one. -/
def slice? (text : String) (start stop : Nat) : Option String :=
  if h : (⟨start⟩ : String.Pos.Raw).IsValid text ∧ (⟨stop⟩ : String.Pos.Raw).IsValid text ∧
      start ≤ stop then
    some (text.slice (text.pos ⟨start⟩ h.1) (text.pos ⟨stop⟩ h.2.1) h.2.2).copy
  else none

variable {c d : Char} {b : UInt8} {cs front part back : List Char} {text : String}

/-! ## Parts -/

theorem slice?_eq_some_iff {part : String} {start stop : Nat} :
    slice? text start stop = some part ↔ ∃ front back, text = front ++ part ++ back ∧
      start = front.utf8ByteSize ∧ stop = (front ++ part).utf8ByteSize := by
  unfold slice?
  constructor
  · intro h
    split at h
    · obtain ⟨front, back, hstart, hstop⟩ := String.copy_slice_eq_iff_splits.mp
        ⟨_, Option.some.inj h⟩
      refine ⟨front, back, hstop.eq_append, ?_, ?_⟩
      · exact congrArg String.Pos.Raw.byteIdx hstart.offset_eq_rawEndPos
      · exact congrArg String.Pos.Raw.byteIdx hstop.offset_eq_rawEndPos
    · cases h
  · rintro ⟨front, back, rfl, rfl, rfl⟩
    have hstart : (⟨front.utf8ByteSize⟩ : String.Pos.Raw).IsValid (front ++ part ++ back) :=
      String.Pos.Raw.isValid_iff_exists_append.mpr ⟨front, part ++ back, String.append_assoc, rfl⟩
    have hstop :
        (⟨(front ++ part).utf8ByteSize⟩ : String.Pos.Raw).IsValid (front ++ part ++ back) :=
      String.Pos.Raw.isValid_iff_exists_append.mpr ⟨front ++ part, back, rfl, rfl⟩
    have hle : front.utf8ByteSize ≤ (front ++ part).utf8ByteSize := by
      rw [String.utf8ByteSize_append]
      exact Nat.le_add_right _ _
    rw [dif_pos ⟨hstart, hstop, hle⟩]
    have hfront : (String.pos _ _ hstart).Splits front (part ++ back) :=
      ⟨String.append_assoc, rfl⟩
    have hback : (String.pos _ _ hstop).Splits (front ++ part) back := ⟨rfl, rfl⟩
    obtain ⟨_, hpart⟩ := String.copy_slice_eq_iff_splits.mpr ⟨front, back, hfront, hback⟩
    exact congrArg some hpart

theorem utf8ByteSize_ofList (cs : List Char) : (String.ofList cs).utf8ByteSize = byteSize cs := by
  induction cs with
  | nil => rfl
  | cons c cs ih =>
    rw [← List.singleton_append, String.ofList_append, String.utf8ByteSize_append, ih,
      ← String.singleton_eq_ofList, String.utf8ByteSize_singleton]
    rfl

theorem utf8ByteSize_eq (text : String) : text.utf8ByteSize = byteSize text.toList := by
  rw [← utf8ByteSize_ofList, String.ofList_toList]

theorem byteSize_append (front back : List Char) :
    byteSize (front ++ back) = byteSize front + byteSize back := by
  rw [← utf8ByteSize_ofList, String.ofList_append, String.utf8ByteSize_append, utf8ByteSize_ofList,
    utf8ByteSize_ofList]

theorem byteSize_concat (front : List Char) (c : Char) :
    byteSize (front ++ [c]) = byteSize front + c.utf8Size := byteSize_append front [c]

/-- The characters between two others are a part. -/
theorem slice?_of_toList (h : text.toList = front ++ part ++ back) :
    slice? text (byteSize front) (byteSize (front ++ part)) = some (String.ofList part) := by
  refine slice?_eq_some_iff.mpr ⟨String.ofList front, String.ofList back, ?_, ?_, ?_⟩
  · rw [← String.ofList_append, ← String.ofList_append, ← h, String.ofList_toList]
  · rw [utf8ByteSize_ofList]
  · rw [← String.ofList_append, utf8ByteSize_ofList]

/-- A text from the end of some characters on. -/
theorem slice?_behind (h : text.toList = front ++ back) :
    slice? text (byteSize front) text.utf8ByteSize = some (String.ofList back) := by
  have hall : text.toList = front ++ back ++ [] := by rw [h, List.append_nil]
  have hsize : text.utf8ByteSize = byteSize (front ++ back) := by rw [utf8ByteSize_eq, h]
  rw [hsize]
  exact slice?_of_toList hall

/-- A text up to the end of some characters. -/
theorem slice?_before (h : text.toList = front ++ back) :
    slice? text 0 (byteSize front) = some (String.ofList front) := by
  have hall : text.toList = [] ++ front ++ back := h
  exact slice?_of_toList hall

theorem byteSize_eq_zero_iff : byteSize cs = 0 ↔ cs = [] := by
  cases cs with
  | nil => exact ⟨fun _ => rfl, fun _ => rfl⟩
  | cons c cs =>
    have hpos := c.utf8Size_pos
    rw [byteSize_cons]
    exact ⟨fun h => by omega, nofun⟩

/-! ## Searching -/

/-- The offset of the first character that passes a test. -/
def firstOffset? (p : Char → Bool) : List Char → Option Nat
  | [] => none
  | c :: rest => if p c then some 0 else (firstOffset? p rest).map (c.utf8Size + ·)

/-- The number of bytes before the first character that fails a test. -/
def runBytes (p : Char → Bool) (text : String) : Nat :=
  (firstOffset? (fun c => !p c) text.toList).getD text.utf8ByteSize

theorem runBytes_eq (p : Char → Bool) (text : String) :
    runBytes p text = byteSize (text.toList.takeWhile p) := by
  rw [runBytes, utf8ByteSize_eq]
  induction text.toList with
  | nil => rfl
  | cons c cs ih =>
    rw [firstOffset?, List.takeWhile_cons]
    cases p c with
    | false => rfl
    | true =>
      have hgetD := Option.getD_map (c.utf8Size + ·) (byteSize cs)
        (firstOffset? (fun c => !p c) cs)
      exact hgetD.trans (congrArg (c.utf8Size + ·) ih)

/-- A character is found behind those that differ from it. -/
theorem firstOffset?_append (h : c ∉ front) :
    firstOffset? (· == c) (front ++ c :: back) = some (byteSize front) := by
  induction front with
  | nil => exact if_pos (beq_self_eq_true c)
  | cons d front ih =>
    rw [List.mem_cons, not_or] at h
    obtain ⟨hne, hfront⟩ := h
    have hd : ¬ (d == c) = true := fun hd => hne (beq_iff_eq.mp hd).symm
    rw [List.cons_append, firstOffset?, if_neg hd, ih hfront]
    rfl

theorem firstOffset?_of_not_mem (h : c ∉ cs) : firstOffset? (· == c) cs = none := by
  induction cs with
  | nil => rfl
  | cons d cs ih =>
    rw [List.mem_cons, not_or] at h
    obtain ⟨hne, hcs⟩ := h
    have hd : ¬ (d == c) = true := fun hd => hne (beq_iff_eq.mp hd).symm
    rw [firstOffset?, if_neg hd, ih hcs]
    rfl

/-! ## Bytes of a character -/

/-- The bytes of a character that takes several lie above those of characters that take one. -/
theorem le_toNat_of_mem_utf8EncodeChar (hc : c.utf8Size ≠ 1)
    (hb : b ∈ String.utf8EncodeChar c) : 128 ≤ b.toNat := by
  have hmark {x k : UInt8} (hk : 128 ≤ k.toNat) : 128 ≤ (x ||| k).toNat := by
    rw [UInt8.toNat_or]
    exact Nat.le_trans hk Nat.right_le_or
  have hsizes : c.utf8Size = 2 ∨ c.utf8Size = 3 ∨ c.utf8Size = 4 := by
    have hpos := c.utf8Size_pos
    have hle := c.utf8Size_le_four
    omega
  rcases hsizes with hsize | hsize | hsize
  · rw [String.utf8EncodeChar_eq_cons_cons hsize] at hb
    simp only [List.mem_cons, List.not_mem_nil, or_false] at hb
    rcases hb with rfl | rfl <;> exact hmark (by decide)
  · rw [String.utf8EncodeChar_eq_cons_cons_cons hsize] at hb
    simp only [List.mem_cons, List.not_mem_nil, or_false] at hb
    rcases hb with rfl | rfl | rfl <;> exact hmark (by decide)
  · rw [String.utf8EncodeChar_eq_cons_cons_cons_cons hsize] at hb
    simp only [List.mem_cons, List.not_mem_nil, or_false] at hb
    rcases hb with rfl | rfl | rfl | rfl <;> exact hmark (by decide)

theorem toNat_toUInt8_of_utf8Size (hd : d.utf8Size = 1) :
    d.toUInt8.toNat = d.val.toNat ∧ d.val.toNat < 128 := by
  have hlt : d.val.toNat < 128 :=
    Nat.lt_succ_of_le (UInt32.le_iff_toNat_le.mp (Char.utf8Size_eq_one_iff.mp hd))
  refine ⟨?_, hlt⟩
  rw [← Char.toUInt8_val, UInt32.toNat_toUInt8]
  omega

/-- The byte of a character that takes one occurs in no other character. -/
theorem mem_utf8EncodeChar_iff (hd : d.utf8Size = 1) :
    d.toUInt8 ∈ String.utf8EncodeChar c ↔ c = d := by
  obtain ⟨hbyte, hlt⟩ := toNat_toUInt8_of_utf8Size hd
  constructor
  · intro h
    by_cases hc : c.utf8Size = 1
    · rw [String.utf8EncodeChar_eq_singleton hc, List.mem_singleton] at h
      have hval : d.toUInt8.toNat = c.toUInt8.toNat := congrArg UInt8.toNat h
      rw [hbyte, (toNat_toUInt8_of_utf8Size hc).1] at hval
      exact Char.ext (UInt32.toNat_inj.mp hval.symm)
    · have hle := le_toNat_of_mem_utf8EncodeChar hc h
      omega
  · rintro rfl
    rw [String.utf8EncodeChar_eq_singleton hd]
    exact List.mem_singleton_self _

/-! ## Bytes of a text -/

theorem getElem?_toByteArray (text : String) (index : Nat) :
    text.toByteArray[index]? = (text.toList.flatMap String.utf8EncodeChar)[index]? := by
  rw [← String.utf8Encode_toList, List.utf8Encode]
  simp only [getElem?_def, List.size_toByteArray, List.getElem_toByteArray]

theorem length_flatMap_utf8EncodeChar (cs : List Char) :
    (cs.flatMap String.utf8EncodeChar).length = byteSize cs := by
  induction cs with
  | nil => rfl
  | cons c cs ih =>
    rw [List.flatMap_cons, List.length_append, ih, String.length_utf8EncodeChar]
    rfl

/-- The bytes behind the front of a text are those of the characters there. -/
theorem getElem?_toByteArray_of_toList (h : text.toList = front ++ back) (j : Nat) :
    text.toByteArray[byteSize front + j]? = (back.flatMap String.utf8EncodeChar)[j]? := by
  rw [getElem?_toByteArray, h, List.flatMap_append, ← length_flatMap_utf8EncodeChar,
    List.getElem?_append_right (Nat.le_add_right _ _), Nat.add_sub_cancel_left]

/-- The bytes of a character of a text. -/
theorem exists_byte_of_toList (h : text.toList = front ++ c :: back) {j : Nat}
    (hj : j < c.utf8Size) :
    ∃ b ∈ String.utf8EncodeChar c, text.toByteArray[byteSize front + j]? = some b := by
  rw [← String.length_utf8EncodeChar] at hj
  refine ⟨_, List.getElem_mem hj, ?_⟩
  rw [getElem?_toByteArray_of_toList h, List.flatMap_cons, List.getElem?_append_left hj,
    List.getElem?_eq_getElem hj]

/-- Where a character may begin, the byte of a character that takes one tells that character. -/
theorem getElem?_toByteArray_eq_iff (h : text.toList = front ++ back) (hd : d.utf8Size = 1) :
    text.toByteArray[byteSize front]? = some d.toUInt8 ↔ back.head? = some d := by
  cases back with
  | nil =>
    have hend := getElem?_toByteArray_of_toList h 0
    rw [Nat.add_zero] at hend
    simp [hend]
  | cons c back =>
    obtain ⟨b, hb, hbyte⟩ := exists_byte_of_toList h c.utf8Size_pos
    rw [Nat.add_zero] at hbyte
    rw [hbyte, List.head?_cons, Option.some.injEq, Option.some.injEq]
    constructor
    · rintro rfl
      exact (mem_utf8EncodeChar_iff hd).mp hb
    · rintro rfl
      rw [String.utf8EncodeChar_eq_singleton hd] at hb
      exact List.mem_singleton.mp hb

end XPathBench.Text
