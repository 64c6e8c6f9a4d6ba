import ServiceSim.Proofs.Expression.Words

/-!
# Bytes of texts

A text lies in memory as bytes, one to four for a character.  An index into them is good for a slice
only where a character begins or the text ends (`isBoundary`, `isBoundary_iff_isValid`).

`IsAt text i cs` says that the index `i` of the bytes of `text` is such a place, and that the
characters `cs` stand from there on.  A class of characters with one byte each, such as the digits,
can be told from single bytes, since no byte of another character is in it; and so can the class of
all characters but one of them.  Going on byte by byte while bytes are in such a class therefore ends
where going on by characters does (`IsAt.scan`), also behind characters of several bytes.
-/

namespace ServiceSim.Expression

variable {text cs rest w : List Char} {i : Nat} {p q : Char → Bool}

/-! ## Indices -/

/-- The bytes of characters. -/
def encode (cs : List Char) : List UInt8 := cs.flatMap String.utf8EncodeChar

/-- The bytes of a text. -/
def bytes (text : String) : List UInt8 := text.toUTF8.data.toList

section

variable (src : List UInt8)

/-- Whether there is a byte at an index and it is that of a character in a class. -/
def has (p : Char → Bool) (i : Nat) : Bool := (src[i]?.map fun b => p (Char.ofUInt8 b)).getD false

/-- Whether an index is good for a slice: the byte there does not go on with a character. -/
def isBoundary (i : Nat) : Bool :=
  i == 0 || match src[i]? with
    | some b => b < 0x80 || 0xc0 ≤ b
    | none => i == src.length

/-- The first index from `i` on at which a condition fails, or the end of the bytes. -/
def scan (go : Nat → Bool) (i : Nat) : Nat :=
  if i < src.length ∧ go i = true then scan go (i + 1) else i
termination_by src.length - i

end

/-- The index `i` stands before the characters `cs`, with which the text ends. -/
def IsAt (text : List Char) (i : Nat) (cs : List Char) : Prop :=
  ∃ front, text = front ++ cs ∧ i = (encode front).length

/-! ## Bytes of characters -/

@[simp] lemma encode_nil : encode [] = [] := rfl

@[simp] lemma encode_cons (c : Char) (cs : List Char) :
    encode (c :: cs) = String.utf8EncodeChar c ++ encode cs := rfl

@[simp] lemma encode_append (cs cs' : List Char) : encode (cs ++ cs') = encode cs ++ encode cs' :=
  List.flatMap_append

lemma bytes_eq (text : String) : bytes text = encode text.toList := by
  have harray : text.toUTF8 = (encode text.toList).toByteArray := by
    rw [← String.ofList_toList (s := text), String.toList_ofList]
    exact String.toByteArray_ofList
  rw [bytes, harray, List.toList_data_toByteArray]

lemma length_bytes (text : String) : (bytes text).length = text.utf8ByteSize := rfl

lemma byteSize_eq (cs : List Char) : Text.byteSize cs = (encode cs).length := by
  have hfold : ∀ n, cs.foldl (fun n c => n + c.utf8Size) n = n + (encode cs).length := by
    induction cs with
    | nil => exact fun n => rfl
    | cons c cs ih =>
      intro n
      rw [List.foldl_cons, ih, encode_cons, List.length_append, String.length_utf8EncodeChar]
      omega
  rw [Text.byteSize, hfold, Nat.zero_add]

/-- A character takes at least one byte. -/
lemma length_le_encode (cs : List Char) : cs.length ≤ (encode cs).length := by
  induction cs with
  | nil => exact le_refl _
  | cons c cs ih =>
    have hc := c.utf8Size_pos
    rw [encode_cons, List.length_append, String.length_utf8EncodeChar, List.length_cons]
    omega

lemma utf8EncodeChar_ascii {c : Char} (h : c.toNat < 128) :
    String.utf8EncodeChar c = [UInt8.ofNat c.toNat] := by
  have hle : c.val.toNat ≤ 127 := Nat.le_of_lt_succ h
  rw [String.utf8EncodeChar]
  exact if_pos hle

lemma ofUInt8_ofNat {c : Char} (h : c.toNat < 128) : Char.ofUInt8 (UInt8.ofNat c.toNat) = c := by
  have hmod : c.toNat % 256 = c.toNat := Nat.mod_eq_of_lt (by omega)
  refine Char.ext (UInt32.toNat_inj.mp ?_)
  change (UInt8.ofNat c.toNat).toUInt32.toNat = c.toNat
  rw [UInt8.toNat_toUInt32, UInt8.toNat_ofNat', hmod]

/-- No byte of a character with several bytes is that of a character with one. -/
lemma high_of_mem {c : Char} (h : 128 ≤ c.toNat) : ∀ b ∈ String.utf8EncodeChar c, 128 ≤ b.toNat := by
  have hnot : ¬ c.val.toNat ≤ 127 := Nat.not_le_of_lt h
  rw [String.utf8EncodeChar, if_neg hnot]
  split_ifs
  all_goals
    simp only [List.forall_mem_cons, List.not_mem_nil, false_implies, implies_true, and_true,
      UInt8.toNat_ofNat']
    omega

/-- A slice may begin with the first byte of a character, but not with another one. -/
lemma first_byte (c : Char) : ∃ b more, String.utf8EncodeChar c = b :: more ∧
    (b < 0x80 || 0xc0 ≤ b) = true ∧ ∀ x ∈ more, (x < 0x80 || 0xc0 ≤ x) = false := by
  have hrest : ∀ n : Nat, (UInt8.ofNat (n % 64 + 128) < 0x80 ||
      0xc0 ≤ UInt8.ofNat (n % 64 + 128)) = false := by
    intro n
    simp only [Bool.or_eq_false_iff, decide_eq_false_iff_not, UInt8.lt_iff_toNat_lt,
      UInt8.le_iff_toNat_le, UInt8.toNat_ofNat']
    change ¬ _ < 128 ∧ ¬ 192 ≤ _
    omega
  rw [String.utf8EncodeChar]
  split_ifs
  all_goals
    refine ⟨_, _, rfl, ?_, ?_⟩
    · simp only [Bool.or_eq_true, decide_eq_true_eq, UInt8.lt_iff_toNat_lt, UInt8.le_iff_toNat_le,
        UInt8.toNat_ofNat']
      change _ < 128 ∨ 192 ≤ _
      omega
    · simp only [List.forall_mem_cons, List.not_mem_nil, false_implies, implies_true, hrest,
        and_self]

/-! ## Classes of characters -/

/-- A class that can be told from any byte of a character. -/
def IsUniform (p : Char → Bool) : Prop :=
  ∀ c, ∀ b ∈ String.utf8EncodeChar c, p (Char.ofUInt8 b) = p c

/-- A class that has all of the characters with several bytes or none of them. -/
lemma isUniform_of {v : Bool} (h : ∀ c : Char, 128 ≤ c.toNat → p c = v) : IsUniform p := by
  intro c b hb
  by_cases hc : 128 ≤ c.toNat
  · have hbyte : (Char.ofUInt8 b).toNat = b.toNat := UInt8.toNat_toUInt32 b
    rw [h c hc, h _ (by rw [hbyte]; exact high_of_mem hc b hb)]
  · have hc : c.toNat < 128 := Nat.lt_of_not_le hc
    rw [utf8EncodeChar_ascii hc, List.mem_singleton] at hb
    rw [hb, ofUInt8_ofNat hc]

lemma isUniform_beq {d : Char} (h : d.toNat < 128) : IsUniform (· == d) := by
  refine isUniform_of (v := false) fun c hc => beq_false_of_ne ?_
  rintro rfl
  omega

lemma IsUniform.or (h : IsUniform p) (hq : IsUniform q) : IsUniform fun c => p c || q c :=
  fun c b hb => congrArg₂ _ (h c b hb) (hq c b hb)

lemma IsUniform.not (h : IsUniform p) : IsUniform fun c => !p c :=
  fun c b hb => congrArg _ (h c b hb)

lemma isUniform_blank : IsUniform isBlank :=
  ((((isUniform_beq (by decide)).or (isUniform_beq (by decide))).or
    (isUniform_beq (by decide))).or (isUniform_beq (by decide))).or (isUniform_beq (by decide))

/-- The characters of names have one byte. -/
lemma toNat_lt_of_nameChar {c : Char} (h : isNameChar c = true) : c.toNat < 128 := by
  have hrange := nameChar_range h
  omega

lemma isUniform_of_nameChar (h : ∀ c, p c = true → isNameChar c = true) : IsUniform p := by
  refine isUniform_of (v := false) fun c hc => ?_
  by_contra hp
  exact absurd (toNat_lt_of_nameChar (h c (by simpa using hp))) (by omega)

lemma isUniform_nameChar : IsUniform isNameChar := isUniform_of_nameChar fun _ h => h

lemma isUniform_nameStart : IsUniform isNameStart :=
  isUniform_of_nameChar fun _ h => isNameChar_of_start h

lemma isUniform_digit : IsUniform Char.isDigit :=
  isUniform_of_nameChar fun _ h => by rw [isNameChar, Char.isAlphanum, h, Bool.or_true, Bool.true_or]

/-! ## Going on while a condition holds -/

lemma scan_stop {go : Nat → Bool} (hgo : go i = false) (src : List UInt8) : scan src go i = i := by
  rw [scan, if_neg]
  rintro ⟨-, h⟩
  rw [hgo] at h
  cases h

lemma scan_end {src : List UInt8} {go : Nat → Bool} (h : src.length ≤ i) : scan src go i = i := by
  rw [scan, if_neg]
  rintro ⟨hlt, -⟩
  omega

/-- Bytes for which the condition holds. -/
lemma scan_add {src : List UInt8} {go : Nat → Bool} {k : Nat} (hlength : i + k ≤ src.length)
    (hgo : ∀ j < k, go (i + j) = true) : scan src go i = scan src go (i + k) := by
  induction k with
  | zero => rfl
  | succ k ih =>
    rw [ih (by omega) fun j hj => hgo j (by omega), scan, if_pos ⟨by omega, hgo k (by omega)⟩]
    rfl

/-! ## Places between characters -/

lemma isAt_zero (text : List Char) : IsAt text 0 text := ⟨[], rfl, rfl⟩

namespace IsAt

/-- The bytes from an index on are those of the characters there. -/
lemma drop (h : IsAt text i cs) : (encode text).drop i = encode cs := by
  obtain ⟨front, rfl, rfl⟩ := h
  rw [encode_append, List.drop_left]

lemma getElem? (h : IsAt text i cs) (k : Nat) : (encode text)[i + k]? = (encode cs)[k]? := by
  rw [← h.drop, List.getElem?_drop]

lemma length (h : IsAt text i cs) : i + (encode cs).length = (encode text).length := by
  obtain ⟨front, rfl, rfl⟩ := h
  rw [encode_append, List.length_append]

/-- Characters that are passed. -/
lemma pass (h : IsAt text i (w ++ cs)) : IsAt text (i + (encode w).length) cs := by
  obtain ⟨front, rfl, rfl⟩ := h
  exact ⟨front ++ w, by simp, by simp⟩

/-- One character with one byte. -/
lemma next {c : Char} (h : IsAt text i (c :: cs)) (hc : c.toNat < 128) : IsAt text (i + 1) cs := by
  have hpass := pass (w := [c]) h
  rwa [encode_cons, utf8EncodeChar_ascii hc] at hpass

lemma lt_iff (h : IsAt text i cs) : i < (encode text).length ↔ cs ≠ [] := by
  have hlength := h.length
  cases cs with
  | nil =>
    rw [encode_nil, List.length_nil] at hlength
    simp only [ne_eq, not_true_eq_false, iff_false]
    omega
  | cons c cs =>
    have hpos := length_le_encode (c :: cs)
    rw [List.length_cons] at hpos
    simp only [ne_eq, reduceCtorEq, not_false_eq_true, iff_true]
    omega

/-- **A place between characters is good for a slice.** -/
theorem isBoundary (h : IsAt text i cs) : isBoundary (encode text) i = true := by
  have hget := h.getElem? 0
  have hlength := h.length
  rw [Nat.add_zero] at hget
  rw [Expression.isBoundary, hget, Bool.or_eq_true]
  refine .inr ?_
  cases cs with
  | nil => simpa using hlength
  | cons c cs =>
    obtain ⟨b, more, hbytes, hb, -⟩ := first_byte c
    rw [encode_cons, hbytes]
    exact hb

/-- The class of the character at an index. -/
lemma has_eq (h : IsAt text i cs) (hp : IsUniform p) :
    has (encode text) p i = (cs.head?.map p).getD false := by
  have hget := h.getElem? 0
  rw [Nat.add_zero] at hget
  rw [has, hget]
  cases cs with
  | nil => rfl
  | cons c cs =>
    obtain ⟨b, more, hbytes, -, -⟩ := first_byte c
    have hb := hp c b (by rw [hbytes]; exact List.mem_cons_self)
    rw [encode_cons, hbytes]
    exact hb

lemma has_cons {c : Char} (h : IsAt text i (c :: cs)) (hp : IsUniform p) :
    has (encode text) p i = p c := h.has_eq hp

lemma has_nil (h : IsAt text i []) (hp : IsUniform p) : has (encode text) p i = false := h.has_eq hp

/-- **Going on by bytes ends where going on by characters does.** -/
theorem scan (h : IsAt text i cs) (hp : IsUniform p) :
    Expression.scan (encode text) (has (encode text) p) i =
        i + (encode (cs.takeWhile p)).length ∧
      IsAt text (Expression.scan (encode text) (has (encode text) p) i) (cs.dropWhile p) := by
  induction cs generalizing i with
  | nil =>
    have hend := h.length
    rw [encode_nil, List.length_nil, Nat.add_zero] at hend
    rw [scan_end (by omega)]
    exact ⟨rfl, h⟩
  | cons c cs ih =>
    cases hc : p c with
    | false =>
      have hstop : has (encode text) p i = false := by
        rw [h.has_eq hp]
        exact hc
      rw [scan_stop hstop, List.takeWhile_cons_of_neg (by simp [hc]),
        List.dropWhile_cons_of_neg (by simp [hc])]
      exact ⟨rfl, h⟩
    | true =>
      have hpass : IsAt text (i + (String.utf8EncodeChar c).length) cs := by
        have hpass := pass (w := [c]) h
        rwa [encode_cons, encode_nil, List.append_nil] at hpass
      have hgo : ∀ j < (String.utf8EncodeChar c).length, has (encode text) p (i + j) = true := by
        intro j hj
        rw [has, h.getElem? j, encode_cons, List.getElem?_append_left hj,
          List.getElem?_eq_getElem hj]
        exact (hp c _ (List.getElem_mem hj)).trans hc
      have hlength := hpass.length
      obtain ⟨heq, hat⟩ := ih hpass
      rw [scan_add (by omega) hgo, List.takeWhile_cons_of_pos hc, List.dropWhile_cons_of_pos hc]
      refine ⟨?_, hat⟩
      rw [heq, encode_cons, List.length_append]
      omega

/-! ## Slices -/

/-- The bytes between two indices are those of the characters between. -/
lemma extract (h : IsAt text i (w ++ cs)) :
    ((encode text).take (i + (encode w).length)).drop i = encode w := by
  rw [List.drop_take, h.drop, encode_append, Nat.add_sub_cancel_left, List.take_left]

/-- A place between characters is a position of the text. -/
lemma isValid {text : String} (h : IsAt text.toList i cs) : (String.Pos.Raw.mk i).IsValid text := by
  obtain ⟨front, htext, rfl⟩ := h
  refine String.Pos.Raw.isValid_iff_exists_append.mpr ⟨String.ofList front, String.ofList cs, ?_, ?_⟩
  · rw [← String.ofList_append, ← htext, String.ofList_toList]
  · have hsize : (String.ofList front).utf8ByteSize = (encode front).length := by
      rw [← length_bytes, bytes_eq, String.toList_ofList]
    exact String.Pos.Raw.ext hsize.symm

end IsAt

/-- A byte that does not go on with a character begins one. -/
lemma exists_isAt (h : isBoundary (encode text) i = true) : ∃ cs, IsAt text i cs := by
  induction text generalizing i with
  | nil =>
    have hi : i = 0 := by simpa [isBoundary] using h
    exact ⟨[], [], rfl, hi⟩
  | cons c text ih =>
    by_cases hzero : i = 0
    · exact ⟨c :: text, [], rfl, hzero⟩
    by_cases hinside : i < (String.utf8EncodeChar c).length
    · -- The byte goes on with the character.
      obtain ⟨b, more, hbytes, -, hmore⟩ := first_byte c
      rw [hbytes, List.length_cons] at hinside
      obtain ⟨k, rfl⟩ := Nat.exists_eq_succ_of_ne_zero hzero
      have hk : k < more.length := Nat.lt_of_succ_lt_succ hinside
      rw [isBoundary, encode_cons, hbytes, List.cons_append, List.getElem?_cons_succ,
        List.getElem?_append_left hk, List.getElem?_eq_getElem hk] at h
      dsimp only at h
      rw [hmore _ (List.getElem_mem hk)] at h
      cases h
    · obtain ⟨k, rfl⟩ := Nat.exists_eq_add_of_le (Nat.le_of_not_lt hinside)
      have hlater : isBoundary (encode text) k = true := by
        rw [isBoundary, encode_cons, List.getElem?_append_right (Nat.le_add_right _ _),
          Nat.add_sub_cancel_left, beq_false_of_ne hzero, Bool.false_or, List.length_append] at h
        rw [isBoundary, Bool.or_eq_true]
        refine .inr ?_
        cases hbyte : (encode text)[k]? with
        | some b =>
          rw [hbyte] at h
          exact h
        | none =>
          rw [hbyte] at h
          simpa using h
      obtain ⟨cs, front, rfl, rfl⟩ := ih hlater
      exact ⟨cs, c :: front, rfl, by rw [encode_cons, List.length_append]⟩

/-- **Only places between characters are good for a slice.** -/
theorem isBoundary_iff : isBoundary (encode text) i = true ↔ ∃ cs, IsAt text i cs := by
  refine ⟨exists_isAt, ?_⟩
  rintro ⟨cs, hat⟩
  exact hat.isBoundary

/-- **The indices that are good for a slice are the positions of the text.** -/
theorem isBoundary_iff_isValid {text : String} :
    isBoundary (bytes text) i = true ↔ (String.Pos.Raw.mk i).IsValid text := by
  rw [bytes_eq, isBoundary_iff]
  refine ⟨fun h => ?_, fun h => ?_⟩
  · obtain ⟨cs, hat⟩ := h
    exact hat.isValid
  obtain ⟨front, cs, rfl, hfront⟩ := String.Pos.Raw.isValid_iff_exists_append.mp h
  refine ⟨cs.toList, front.toList, String.toList_append, ?_⟩
  rw [← bytes_eq, length_bytes]
  exact congrArg String.Pos.Raw.byteIdx hfront

/-- Bytes of characters are read as these characters. -/
lemma fromUTF8?_encode (cs : List Char) :
    String.fromUTF8? (encode cs).toByteArray = some (String.ofList cs) := by
  have hbytes : (encode cs).toByteArray = (String.ofList cs).toByteArray :=
    String.toByteArray_ofList.symm
  rw [hbytes, String.fromUTF8?, dif_pos (String.ofList cs).isValidUTF8]
  rfl

/-- A word of characters with one byte each stands in front of characters if its bytes stand in
front of theirs. -/
lemma isPrefixOf_encode (hw : ∀ c ∈ w, c.toNat < 128) (cs : List Char) :
    (encode w).isPrefixOf (encode cs) = (after? w cs).isSome := by
  induction w generalizing cs with
  | nil => rfl
  | cons x w ih =>
    have hx : x.toNat < 128 := hw x List.mem_cons_self
    cases cs with
    | nil =>
      rw [encode_cons, utf8EncodeChar_ascii hx]
      rfl
    | cons c cs =>
      obtain ⟨b, more, hbytes, -, -⟩ := first_byte c
      have hc := isUniform_beq hx c b (by rw [hbytes]; exact List.mem_cons_self)
      rw [encode_cons, utf8EncodeChar_ascii hx, after?]
      by_cases hxc : x = c
      · subst hxc
        rw [if_pos rfl, encode_cons, utf8EncodeChar_ascii hx, ← ih fun y hy => hw y (by simp [hy])]
        simp
      · have hb : UInt8.ofNat x.toNat ≠ b := by
          rintro rfl
          rw [ofUInt8_ofNat hx] at hc
          simp [Ne.symm hxc] at hc
        rw [if_neg hxc, encode_cons, hbytes]
        simp [List.isPrefixOf, hb]

end ServiceSim.Expression
