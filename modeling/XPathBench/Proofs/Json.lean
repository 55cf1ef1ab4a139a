import XPathBench.Json
import XPathBench.Proofs.Xml.Names

/-!
# JSON texts tell their values

A value without floating-point numbers is told by its text, whatever stands behind the text. Where a
number ends is told by the next character, so no digit may stand behind a value.

* `quote_append_inj`: strings are told by what they are written as
* `Told`: what is written the same is the same
* `entries_append_inj`: items and members, if each of them is told
* `pretty_injective`: values are told by their texts
-/

namespace XPathBench.Json

open Xml (NotAhead notAhead_cons notAhead_nil)

variable {c : Char} {r r' : List Char} {s s' : String}

/-! ## Strings -/

/-- The value of a hexadecimal digit in lower case. -/
def hexValue (c : Char) : Nat := if c.toNat < 58 then c.toNat - 48 else c.toNat - 87

/-- The character that an escape letter stands for. -/
def unletter? : Char → Option Char
  | '"' => some '"'
  | '\\' => some '\\'
  | 'n' => some '\n'
  | 'r' => some '\r'
  | 't' => some '\t'
  | 'b' => some '\x08'
  | 'f' => some '\x0c'
  | _ => none

/-- The first character of what is written inside a JSON string, and what is behind it. -/
def readChar? : List Char → Option (Char × List Char)
  | '\\' :: 'u' :: '0' :: '0' :: high :: low :: rest =>
    some (Char.ofNat (16 * hexValue high + hexValue low), rest)
  | '\\' :: l :: rest => (unletter? l).map (·, rest)
  | c :: rest => if c = '"' then none else some (c, rest)
  | [] => none

theorem hexValue_hexDigit : ∀ n < 16, hexValue (hexDigit n) = n := by decide

theorem readChar?_plain (hslash : c ≠ '\\') (hquote : c ≠ '"') :
    readChar? (c :: r) = some (c, r) := by
  unfold readChar?
  split <;> simp_all

/-- Every character is read back from what it is written as. -/
theorem readChar?_escapeChar (c : Char) (r : List Char) :
    readChar? (escapeChar c ++ r) = some (c, r) := by
  unfold escapeChar
  split
  next h => rw [h]; rfl
  split
  next h => rw [h]; rfl
  split
  next h => rw [h]; rfl
  split
  next h => rw [h]; rfl
  split
  next h => rw [h]; rfl
  split
  next h => rw [Char.toNat_inj.mp (h.trans (by rfl : 8 = ('\x08').toNat))]; rfl
  split
  next h => rw [Char.toNat_inj.mp (h.trans (by rfl : 12 = ('\x0c').toNat))]; rfl
  split
  next h =>
    have hvalue : 16 * hexValue (hexDigit (c.toNat / 16)) + hexValue (hexDigit (c.toNat % 16)) =
        c.toNat := by
      rw [hexValue_hexDigit _ (by omega), hexValue_hexDigit _ (by omega), Nat.div_add_mod]
    simp only [List.cons_append, List.nil_append, readChar?, hvalue, Char.ofNat_toNat]
  next hquote hslash _ _ _ _ _ _ => exact readChar?_plain hslash hquote

theorem readChar?_escaped (c : Char) (cs r : List Char) :
    readChar? ((c :: cs).flatMap escapeChar ++ '"' :: r) =
      some (c, cs.flatMap escapeChar ++ '"' :: r) := by
  rw [List.flatMap_cons, List.append_assoc, readChar?_escapeChar]

theorem escaped_append_inj {cs cs' : List Char}
    (h : cs.flatMap escapeChar ++ '"' :: r = cs'.flatMap escapeChar ++ '"' :: r') :
    cs = cs' ∧ r = r' := by
  induction cs generalizing cs' with
  | nil =>
    cases cs' with
    | nil => exact ⟨rfl, (List.cons.inj h).2⟩
    | cons d ds => cases (congrArg readChar? h).trans (readChar?_escaped d ds r')
  | cons c cs ih =>
    have hread := (readChar?_escaped c cs r).symm.trans (congrArg readChar? h)
    cases cs' with
    | nil => cases hread
    | cons d ds =>
      rw [readChar?_escaped, Option.some.injEq, Prod.mk.injEq] at hread
      obtain ⟨rfl, hrest⟩ := hread
      obtain ⟨rfl, hr⟩ := ih hrest
      exact ⟨rfl, hr⟩

theorem toList_quote (s : String) :
    (quote s).toList = '"' :: (s.toList.flatMap escapeChar ++ ['"']) :=
  String.toList_ofList

theorem quote_append_inj (h : (quote s).toList ++ r = (quote s').toList ++ r') :
    s = s' ∧ r = r' := by
  simp only [toList_quote, List.cons_append, List.append_assoc, List.nil_append,
    List.cons.injEq, true_and] at h
  obtain ⟨hs, hr⟩ := escaped_append_inj h
  exact ⟨String.toList_inj.mp hs, hr⟩

/-! ## Numbers -/

theorem isDigit_of_mem_toDigits {n : Nat} : ∀ c ∈ Nat.toDigits 10 n, c.isDigit = true :=
  fun _ hc => Nat.isDigit_of_mem_toDigits (by decide) (by decide) hc

theorem natural_append_inj {n n' : Nat} (hr : NotAhead Char.isDigit r)
    (hr' : NotAhead Char.isDigit r')
    (h : (toString n).toList ++ r = (toString n').toList ++ r') : n = n' ∧ r = r' := by
  simp only [Nat.toString_eq_repr, Nat.toList_repr] at h
  have hsame := congrArg (List.takeWhile Char.isDigit) h
  rw [Xml.takeWhile_append_of_notAhead isDigit_of_mem_toDigits hr,
    Xml.takeWhile_append_of_notAhead isDigit_of_mem_toDigits hr'] at hsame
  rw [hsame] at h
  have hvalue := congrArg (Nat.ofDigitChars 10 · 0) hsame
  simp only [Nat.ofDigitChars_ten_toDigits] at hvalue
  exact ⟨hvalue, List.append_cancel_left h⟩

/-! ## Items and members -/

/-- Two values are one if `write` writes them the same, whatever stands behind them but digits. -/
def Told {α : Type} (write : α → List Char) (a a' : α) : Prop :=
  ∀ r r', NotAhead Char.isDigit r → NotAhead Char.isDigit r' →
    write a ++ r = write a' ++ r' → a = a' ∧ r = r'

section Entries

variable {α : Type} (level : Nat) (write : α → List Char)

/-- The items or members behind the first one. -/
def laterEntries (as : List α) : List Char :=
  as.flatMap fun a => ',' :: ((newline level).toList ++ write a)

/-- The items or members between two brackets, a line each. -/
def entries : List α → List Char
  | [] => []
  | a :: as => (newline (level + 1)).toList ++ (write a ++ (laterEntries (level + 1) write as ++
      (newline level).toList))

variable {level write}

theorem toList_newline (level : Nat) :
    (newline level).toList = '\n' :: List.replicate (2 * level) ' ' := by
  simp [newline]

theorem notAhead_laterEntries (as : List α) (outer : Nat) (r : List Char) :
    NotAhead Char.isDigit (laterEntries level write as ++ ((newline outer).toList ++ r)) := by
  cases as with
  | nil =>
    rw [laterEntries, List.flatMap_nil, List.nil_append, toList_newline, List.cons_append]
    exact notAhead_cons.mpr (by decide)
  | cons a as => exact notAhead_cons.mpr (by decide)

theorem laterEntries_append_inj {as as' : List α} {outer : Nat}
    (htold : ∀ a ∈ as, ∀ a' ∈ as', Told write a a')
    (h : laterEntries level write as ++ ((newline outer).toList ++ r) =
      laterEntries level write as' ++ ((newline outer).toList ++ r')) : as = as' ∧ r = r' := by
  induction as generalizing as' with
  | nil =>
    cases as' with
    | nil => exact ⟨rfl, List.append_cancel_left h⟩
    | cons a' as' =>
      rw [toList_newline] at h
      exact absurd (List.cons.inj h).1 (by decide)
  | cons a as ih =>
    cases as' with
    | nil =>
      rw [toList_newline] at h
      exact absurd (List.cons.inj h).1 (by decide)
    | cons a' as' =>
      simp only [laterEntries, List.flatMap_cons, List.cons_append, List.append_assoc,
        List.cons.injEq, true_and, List.append_cancel_left_eq] at h
      obtain ⟨rfl, hrest⟩ := htold a List.mem_cons_self a' List.mem_cons_self _ _
        (notAhead_laterEntries as outer r) (notAhead_laterEntries as' outer r') h
      obtain ⟨rfl, hr⟩ := ih (fun b hb b' hb' => htold b (List.mem_cons_of_mem _ hb) b'
        (List.mem_cons_of_mem _ hb')) hrest
      exact ⟨rfl, hr⟩

theorem entries_append_inj {as as' : List α} {close : Char} (hclose : close ≠ '\n')
    (htold : ∀ a ∈ as, ∀ a' ∈ as', Told write a a')
    (h : entries level write as ++ close :: r = entries level write as' ++ close :: r') :
    as = as' ∧ r = r' := by
  cases as with
  | nil =>
    cases as' with
    | nil => exact ⟨rfl, (List.cons.inj h).2⟩
    | cons a' as' =>
      rw [entries, entries, toList_newline] at h
      exact absurd (List.cons.inj h).1 hclose
  | cons a as =>
    cases as' with
    | nil =>
      rw [entries, entries, toList_newline] at h
      exact absurd (List.cons.inj h).1.symm hclose
    | cons a' as' =>
      simp only [entries, List.append_assoc, List.append_cancel_left_eq] at h
      obtain ⟨rfl, hrest⟩ := htold a List.mem_cons_self a' List.mem_cons_self _ _
        (notAhead_laterEntries as level _) (notAhead_laterEntries as' level _) h
      obtain ⟨rfl, hr⟩ := laterEntries_append_inj (fun b hb b' hb' =>
        htold b (List.mem_cons_of_mem _ hb) b' (List.mem_cons_of_mem _ hb')) hrest
      exact ⟨rfl, (List.cons.inj hr).2⟩

end Entries

/-! ## Values -/

/-- A member of an object as it is written at a level. -/
def writeMember (level : Nat) (m : String × Json) : List Char :=
  (quote m.1).toList ++ (':' :: ' ' :: (prettyAt level m.2).toList)

/-- Members are told by what they are written as if their values are. -/
theorem told_writeMember {level : Nat} {m m' : String × Json}
    (h : Told (fun j => (prettyAt level j).toList) m.2 m'.2) : Told (writeMember level) m m' := by
  intro r r' hr hr' htext
  simp only [writeMember, List.append_assoc, List.cons_append] at htext
  obtain ⟨hname, htext⟩ := quote_append_inj htext
  obtain ⟨hvalue, hrest⟩ := h r r' hr hr' (List.cons.inj (List.cons.inj htext).2).2
  exact ⟨Prod.ext hname hvalue, hrest⟩

theorem toList_prettyItems (level : Nat) (items : List Json) : (prettyItems level items).toList =
    laterEntries level (fun j => (prettyAt level j).toList) items := by
  induction items with
  | nil => rfl
  | cons item rest ih => simp [prettyItems, laterEntries, ih]

theorem toList_prettyMembers (level : Nat) (members : List (String × Json)) :
    (prettyMembers level members).toList = laterEntries level (writeMember level) members := by
  induction members with
  | nil => rfl
  | cons m rest ih => simp [prettyMembers, laterEntries, writeMember, ih]

theorem toList_prettyAt_array (level : Nat) (items : List Json) :
    (prettyAt level (array items)).toList =
      '[' :: (entries level (fun j => (prettyAt (level + 1) j).toList) items ++ [']']) := by
  cases items with
  | nil => simp [prettyAt, entries]
  | cons item rest => simp [prettyAt, entries, toList_prettyItems]

theorem toList_prettyAt_object (level : Nat) (members : List (String × Json)) :
    (prettyAt level (object members)).toList =
      '\x7b' :: (entries level (writeMember (level + 1)) members ++ ['\x7d']) := by
  cases members with
  | nil => simp [prettyAt, entries]
  | cons m rest => simp [prettyAt, entries, writeMember, toList_prettyMembers]

/-- A value without floating-point numbers. -/
inductive NumberFree : Json → Prop where
  | null : NumberFree null
  | bool (value : Bool) : NumberFree (bool value)
  | natural (value : Nat) : NumberFree (natural value)
  | text (value : String) : NumberFree (text value)
  | array {items : List Json} (h : ∀ j ∈ items, NumberFree j) : NumberFree (array items)
  | object {members : List (String × Json)} (h : ∀ m ∈ members, NumberFree m.2) :
    NumberFree (object members)

attribute [simp] NumberFree.null NumberFree.bool NumberFree.natural NumberFree.text

@[simp]
theorem numberFree_array {items : List Json} :
    NumberFree (array items) ↔ ∀ j ∈ items, NumberFree j :=
  ⟨fun | .array h => h, .array⟩

@[simp]
theorem numberFree_object {members : List (String × Json)} :
    NumberFree (object members) ↔ ∀ m ∈ members, NumberFree m.2 :=
  ⟨fun | .object h => h, .object⟩

/-- The kinds of values that differ in their first characters. -/
inductive Kind where
  | null
  | bool
  | number
  | text
  | array
  | object

/-- The kind of a value. -/
def kind : Json → Kind
  | null => .null
  | bool _ => .bool
  | natural _ | number _ => .number
  | text _ => .text
  | array _ => .array
  | object _ => .object

/-- The kind of value that begins with a character. -/
def kindAt (c : Char) : Kind :=
  if c.isDigit then .number
  else match c with
    | 'n' => .null
    | 't' | 'f' => .bool
    | '"' => .text
    | '[' => .array
    | _ => .object

variable {j j' : Json} {level : Nat}

theorem exists_kindAt (h : NumberFree j) (level : Nat) :
    ∃ c rest, (prettyAt level j).toList = c :: rest ∧ kindAt c = kind j := by
  cases h with
  | null => exact ⟨'n', "ull".toList, by rw [prettyAt]; rfl, rfl⟩
  | bool value =>
    cases value with
    | true => exact ⟨'t', "rue".toList, by rw [prettyAt]; rfl, rfl⟩
    | false => exact ⟨'f', "alse".toList, by rw [prettyAt]; rfl, rfl⟩
  | natural value =>
    have hdigits : (prettyAt level (natural value)).toList = Nat.toDigits 10 value := by
      rw [prettyAt, Nat.toString_eq_repr, Nat.toList_repr]
    obtain ⟨c, rest, hcons⟩ : ∃ c rest, Nat.toDigits 10 value = c :: rest :=
      List.exists_cons_of_ne_nil Nat.toDigits_ne_nil
    have hdigit : c.isDigit = true := isDigit_of_mem_toDigits c (hcons ▸ List.mem_cons_self)
    exact ⟨c, rest, hdigits.trans hcons, if_pos hdigit⟩
  | text value => exact ⟨'"', _, by rw [prettyAt, toList_quote], rfl⟩
  | array h => exact ⟨'[', _, toList_prettyAt_array level _, rfl⟩
  | object h => exact ⟨'\x7b', _, toList_prettyAt_object level _, rfl⟩

/-- Values are of one kind if they are written at the start of one text. -/
theorem kind_congr (h : NumberFree j) (h' : NumberFree j')
    (htext : (prettyAt level j).toList ++ r = (prettyAt level j').toList ++ r') :
    kind j = kind j' := by
  obtain ⟨c, rest, hcons, hc⟩ := exists_kindAt h level
  obtain ⟨c', rest', hcons', hc'⟩ := exists_kindAt h' level
  rw [hcons, hcons'] at htext
  rw [← hc, ← hc', (List.cons.inj htext).1]

theorem told_bool (level : Nat) (value value' : Bool) :
    Told (fun j => (prettyAt level j).toList) (bool value) (bool value') := by
  intro r r' _ _ htext
  simp only [prettyAt] at htext
  obtain rfl : value = value' := by
    cases value <;> cases value' <;> simp at htext ⊢
  exact ⟨rfl, List.append_cancel_left htext⟩

theorem told_natural (level value value' : Nat) :
    Told (fun j => (prettyAt level j).toList) (natural value) (natural value') := by
  intro r r' hr hr' htext
  simp only [prettyAt] at htext
  obtain ⟨rfl, hrest⟩ := natural_append_inj hr hr' htext
  exact ⟨rfl, hrest⟩

theorem told_text (level : Nat) (value value' : String) :
    Told (fun j => (prettyAt level j).toList) (text value) (text value') := by
  intro r r' _ _ htext
  simp only [prettyAt] at htext
  obtain ⟨rfl, hrest⟩ := quote_append_inj htext
  exact ⟨rfl, hrest⟩

theorem told_array {items items' : List Json} (h : ∀ a ∈ items, ∀ a' ∈ items',
    Told (fun j => (prettyAt (level + 1) j).toList) a a') :
    Told (fun j => (prettyAt level j).toList) (array items) (array items') := by
  intro r r' _ _ htext
  simp only [toList_prettyAt_array, List.cons_append, List.append_assoc, List.nil_append,
    List.cons.injEq, true_and] at htext
  obtain ⟨rfl, hrest⟩ := entries_append_inj (by decide) h htext
  exact ⟨rfl, hrest⟩

theorem told_object {members members' : List (String × Json)} (h : ∀ a ∈ members, ∀ a' ∈ members',
    Told (fun j => (prettyAt (level + 1) j).toList) a.2 a'.2) :
    Told (fun j => (prettyAt level j).toList) (object members) (object members') := by
  intro r r' _ _ htext
  simp only [toList_prettyAt_object, List.cons_append, List.append_assoc, List.nil_append,
    List.cons.injEq, true_and] at htext
  obtain ⟨rfl, hrest⟩ := entries_append_inj (by decide)
    (fun a ha a' ha' => told_writeMember (h a ha a' ha')) htext
  exact ⟨rfl, hrest⟩

/-- A value without floating-point numbers is told by its text. -/
theorem told_prettyAt (h : NumberFree j) (h' : NumberFree j') (level : Nat) :
    Told (fun j => (prettyAt level j).toList) j j' := by
  induction h generalizing j' level with
  | null =>
    intro r r' _ _ htext
    have hkind := kind_congr .null h' htext
    cases h' with
    | null => exact ⟨rfl, List.append_cancel_left htext⟩
    | _ => cases hkind
  | bool value =>
    intro r r' hr hr' htext
    have hkind := kind_congr (.bool value) h' htext
    cases h' with
    | bool value' => exact told_bool level value value' r r' hr hr' htext
    | _ => cases hkind
  | natural value =>
    intro r r' hr hr' htext
    have hkind := kind_congr (.natural value) h' htext
    cases h' with
    | natural value' => exact told_natural level value value' r r' hr hr' htext
    | _ => cases hkind
  | text value =>
    intro r r' hr hr' htext
    have hkind := kind_congr (.text value) h' htext
    cases h' with
    | text value' => exact told_text level value value' r r' hr hr' htext
    | _ => cases hkind
  | array hitems ih =>
    intro r r' hr hr' htext
    have hkind := kind_congr (.array hitems) h' htext
    cases h' with
    | array hitems' =>
      exact told_array (fun a ha a' ha' => ih a ha (hitems' a' ha') _) r r' hr hr' htext
    | _ => cases hkind
  | object hmembers ih =>
    intro r r' hr hr' htext
    have hkind := kind_congr (.object hmembers) h' htext
    cases h' with
    | object hmembers' =>
      exact told_object (fun a ha a' ha' => ih a ha (hmembers' a' ha') _) r r' hr hr' htext
    | _ => cases hkind

/-- Values without floating-point numbers are told by their texts. -/
theorem pretty_injective (h : NumberFree j) (h' : NumberFree j') (htext : j.pretty = j'.pretty) :
    j = j' :=
  (told_prettyAt h h' 0 [] [] notAhead_nil notAhead_nil
    (congrArg (fun text => text.toList ++ []) htext)).1

/-! ## Texts and numbers that may be missing -/

@[simp]
theorem numberFree_ofText? (s : Option String) : NumberFree (ofText? s) := by
  cases s <;> simp [ofText?]

@[simp]
theorem numberFree_ofNatural? (n : Option Nat) : NumberFree (ofNatural? n) := by
  cases n <;> simp [ofNatural?]

theorem ofText?_injective {s s' : Option String} (h : ofText? s = ofText? s') : s = s' := by
  cases s <;> cases s' <;> cases h <;> rfl

theorem ofNatural?_injective {n n' : Option Nat} (h : ofNatural? n = ofNatural? n') : n = n' := by
  cases n <;> cases n' <;> cases h <;> rfl

end XPathBench.Json
