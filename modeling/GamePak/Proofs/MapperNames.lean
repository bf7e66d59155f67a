import GamePak.Descriptor

/-!
Generic board names and the mapper numbers they give. Digits are read from left to right and given
up where the number gets too large for sixteen bits. Since no digit makes a number smaller, that is
where the number of the whole run is too large, and zeros at its front never count. The names of a
number are thus the lead, a plus sign or none, any zeros, and the decimal digits of the number; the
name that is made from it is one of them.
-/

namespace GamePak

namespace MapperName

variable {value next mapper : UInt16} {digits : List Char} {c : Char} {board : String} {n : Nat}

/-! ## Runs of digits -/

/-- A digit is taken just where the number with it fits. -/
theorem pushDigit?_eq_some_iff :
    pushDigit? value c = some next ↔
      c.isDigit ∧ 10 * value.toNat + (c.toNat - '0'.toNat) = next.toNat := by
  unfold pushDigit?
  rw [Option.ite_none_right_eq_some, Option.some.injEq, and_assoc]
  constructor
  · rintro ⟨hdigit, hfits, rfl⟩
    exact ⟨hdigit, (UInt16.toNat_ofNat_of_lt' hfits).symm⟩
  · rintro ⟨hdigit, hnext⟩
    rw [hnext]
    exact ⟨hdigit, next.toNat_lt, UInt16.ofNat_toNat⟩

/-- No digit makes a number smaller, so one that has become too large stays too large. -/
theorem le_ofDigitChars (digits : List Char) (n : Nat) : n ≤ Nat.ofDigitChars 10 digits n := by
  rw [Nat.ofDigitChars_eq_ofDigitChars_zero]
  apply Nat.le_trans (Nat.le_mul_of_pos_left n ?_) (Nat.le_add_right ..)
  exact Nat.pow_pos (by decide)

/-- Digits behind a number are taken just where the number that they make of it fits. -/
theorem foldlM_pushDigit?_eq_some_iff :
    digits.foldlM pushDigit? value = some mapper ↔
      (∀ c ∈ digits, c.isDigit) ∧ Nat.ofDigitChars 10 digits value.toNat = mapper.toNat := by
  induction digits generalizing value with
  | nil => simp [UInt16.toNat_inj]
  | cons c rest ih =>
    rw [List.foldlM_cons, List.forall_mem_cons, Nat.ofDigitChars_cons]
    simp only [Option.bind_eq_bind, Option.bind_eq_some_iff, pushDigit?_eq_some_iff, ih]
    constructor
    · rintro ⟨next, ⟨hc, hnext⟩, hrest, hvalue⟩
      rw [hnext]
      exact ⟨⟨hc, hrest⟩, hvalue⟩
    · rintro ⟨⟨hc, hrest⟩, hvalue⟩
      -- what has been read is at most the whole number, and that one fits
      have hfits := Nat.lt_of_le_of_lt (le_ofDigitChars rest _) (hvalue ▸ mapper.toNat_lt)
      have hnext := UInt16.toNat_ofNat_of_lt' hfits
      refine ⟨_, ⟨hc, hnext.symm⟩, hrest, ?_⟩
      rw [hnext]
      exact hvalue

theorem readDigits?_eq_some_iff :
    readDigits? digits = some mapper ↔
      digits ≠ [] ∧ (∀ c ∈ digits, c.isDigit) ∧ Nat.ofDigitChars 10 digits 0 = mapper.toNat := by
  unfold readDigits?
  split
  · simp
  · rename_i hne
    rw [foldlM_pushDigit?_eq_some_iff]
    exact (and_iff_right hne).symm

/-! ## Zeros at the front -/

theorem digit_lt (h : c.isDigit) : c.toNat - '0'.toNat < 10 := by
  obtain ⟨hzero, hnine⟩ := Char.isDigit_iff_toNat.mp h
  exact Nat.sub_lt_left_of_lt_add hzero (Nat.lt_succ_of_le hnine)

theorem toDigits_digit (h : c.isDigit) : Nat.toDigits 10 (c.toNat - '0'.toNat) = [c] := by
  rw [Nat.toDigits_of_lt_base (digit_lt h), List.singleton_inj, ← Char.toNat_inj,
    Nat.toNat_digitChar_of_lt_ten (digit_lt h)]
  exact Nat.add_sub_of_le (Char.isDigit_iff_toNat.mp h).1

/-- Digits behind a number other than zero are the last digits of the number that they make. -/
theorem toDigits_append (hdigits : ∀ c ∈ digits, c.isDigit) (hn : 0 < n) :
    Nat.toDigits 10 n ++ digits = Nat.toDigits 10 (Nat.ofDigitChars 10 digits n) := by
  induction digits generalizing n with
  | nil => rw [List.append_nil, Nat.ofDigitChars_nil]
  | cons c rest ih =>
    obtain ⟨hc, hrest⟩ := List.forall_mem_cons.mp hdigits
    calc Nat.toDigits 10 n ++ c :: rest
        = Nat.toDigits 10 n ++ Nat.toDigits 10 (c.toNat - '0'.toNat) ++ rest := by
          rw [toDigits_digit hc, List.append_assoc, List.singleton_append]
      _ = Nat.toDigits 10 (10 * n + (c.toNat - '0'.toNat)) ++ rest := by
          rw [Nat.toDigits_append_toDigits (by decide) hn (digit_lt hc)]
      _ = Nat.toDigits 10 (Nat.ofDigitChars 10 (c :: rest) n) := by
          rw [ih hrest (by omega), Nat.ofDigitChars_cons]

/-- A run of digits has the digits of its number at the end, and zeros before them. -/
theorem exists_zeros (hne : digits ≠ []) (hdigits : ∀ c ∈ digits, c.isDigit) :
    ∃ zeros, digits =
      List.replicate zeros '0' ++ Nat.toDigits 10 (Nat.ofDigitChars 10 digits 0) := by
  induction digits with
  | nil => exact absurd rfl hne
  | cons c rest ih =>
    obtain ⟨hc, hrest⟩ := List.forall_mem_cons.mp hdigits
    rw [Nat.ofDigitChars_cons, Nat.mul_zero, Nat.zero_add]
    by_cases hzero : c = '0'
    · subst hzero
      by_cases hnil : rest = []
      · subst hnil
        exact ⟨0, rfl⟩
      · obtain ⟨zeros, hzeros⟩ := ih hnil hrest
        refine ⟨zeros + 1, ?_⟩
        rw [List.replicate_succ, List.cons_append, Nat.sub_self, ← hzeros]
    · have hpos : 0 < c.toNat - '0'.toNat := by
        apply Nat.sub_pos_of_lt
        apply Nat.lt_of_le_of_ne (Char.isDigit_iff_toNat.mp hc).1
        intro hsame
        exact hzero (Char.toNat_inj.mp hsame).symm
      refine ⟨0, ?_⟩
      rw [← toDigits_append hrest hpos, toDigits_digit hc]
      rfl

theorem isDigit_of_mem_zeros (zeros n : Nat)
    (h : c ∈ List.replicate zeros '0' ++ Nat.toDigits 10 n) : c.isDigit := by
  rcases List.mem_append.mp h with hzero | hdigit
  · rw [List.eq_of_mem_replicate hzero]
    rfl
  · exact Nat.isDigit_of_mem_toDigits (by decide) (by decide) hdigit

theorem ofDigitChars_zeros (zeros n : Nat) :
    Nat.ofDigitChars 10 (List.replicate zeros '0' ++ Nat.toDigits 10 n) 0 = n := by
  rw [Nat.ofDigitChars_append, Nat.ofDigitChars_replicate_zero, Nat.mul_zero,
    Nat.ofDigitChars_ten_toDigits]

/-! ## Names -/

/-- The number is in the name: after the lead and at most one plus sign there are decimal digits
and nothing else, and they stand for the number. -/
def Spells (board : String) (n : Nat) : Prop :=
  ∃ sign digits : List Char, (sign = [] ∨ sign = ['+']) ∧ digits ≠ [] ∧
    (∀ c ∈ digits, c.isDigit) ∧ Nat.ofDigitChars 10 digits 0 = n ∧
    board.toList = "MAPPER".toList ++ sign ++ digits

/-- The sign of a number is a plus or none: a plus sign that is left is no digit. -/
theorem readNumber?_eq_some_iff {text : List Char} :
    readNumber? text = some mapper ↔ ∃ sign digits, (sign = [] ∨ sign = ['+']) ∧
      text = sign ++ digits ∧ readDigits? digits = some mapper := by
  unfold readNumber?
  split
  · rename_i rest
    constructor
    · intro h
      exact ⟨['+'], rest, .inr rfl, rfl, h⟩
    · rintro ⟨sign, digits, rfl | rfl, htext, h⟩
      · obtain rfl : '+' :: rest = digits := htext
        cases (readDigits?_eq_some_iff.mp h).2.1 '+' (List.mem_cons_self ..)
      · obtain rfl : rest = digits := (List.cons.inj htext).2
        exact h
  · rename_i hunsigned
    constructor
    · intro h
      exact ⟨[], text, .inl rfl, rfl, h⟩
    · rintro ⟨sign, digits, rfl | rfl, rfl, h⟩
      · exact h
      · cases hunsigned digits rfl

theorem number?_eq_some_iff : number? board = some mapper ↔ Spells board mapper.toNat := by
  unfold number?
  rw [Option.ite_none_right_eq_some, List.isPrefixOf_iff_prefix]
  constructor
  · rintro ⟨⟨text, htext⟩, h⟩
    rw [← htext, List.drop_left] at h
    obtain ⟨sign, digits, hsign, rfl, hread⟩ := readNumber?_eq_some_iff.mp h
    obtain ⟨hne, hdigits, hvalue⟩ := readDigits?_eq_some_iff.mp hread
    refine ⟨sign, digits, hsign, hne, hdigits, hvalue, ?_⟩
    rw [← htext, List.append_assoc]
    rfl
  · rintro ⟨sign, digits, hsign, hne, hdigits, hvalue, hboard⟩
    have htext : lead ++ (sign ++ digits) = board.toList := by
      rw [hboard, List.append_assoc]
      rfl
    refine ⟨⟨_, htext⟩, ?_⟩
    rw [← htext, List.drop_left]
    exact readNumber?_eq_some_iff.mpr
      ⟨sign, digits, hsign, rfl, readDigits?_eq_some_iff.mpr ⟨hne, hdigits, hvalue⟩⟩

/-- The largest number behind many zeros, the number after it, and names that lack digits. -/
example :
    number? "MAPPER+00000000000065535" = some 65535 ∧ number? "MAPPER65536" = none ∧
      number? "MAPPER+" = none ∧ number? "MAPPER++4" = none ∧ number? "MAPPER" = none := by
  decide

/-- The names of a number: its own digits, with any zeros before them. -/
theorem spells_iff_zeros :
    Spells board n ↔ ∃ (sign : List Char) (zeros : Nat), (sign = [] ∨ sign = ['+']) ∧
      board.toList =
        "MAPPER".toList ++ sign ++ (List.replicate zeros '0' ++ Nat.toDigits 10 n) := by
  constructor
  · rintro ⟨sign, digits, hsign, hne, hdigits, rfl, hboard⟩
    obtain ⟨zeros, hzeros⟩ := exists_zeros hne hdigits
    exact ⟨sign, zeros, hsign, hzeros ▸ hboard⟩
  · rintro ⟨sign, zeros, hsign, hboard⟩
    exact ⟨sign, _, hsign, List.append_ne_nil_of_right_ne_nil _ Nat.toDigits_ne_nil,
      fun _ => isDigit_of_mem_zeros zeros n, ofDigitChars_zeros zeros n, hboard⟩

/-- The generic name of a mapper is read as its number. -/
theorem number?_ofNumber (mapper : UInt16) : number? (ofNumber mapper) = some mapper := by
  rw [number?_eq_some_iff, spells_iff_zeros]
  refine ⟨[], 3 - (Nat.toDigits 10 mapper.toNat).length, .inl rfl, ?_⟩
  unfold ofNumber
  rw [String.toList_ofList, List.append_assoc, List.append_nil]
  rfl

theorem ofNumber_injective : Function.Injective ofNumber := by
  intro mapper mapper' h
  have hnumber := number?_ofNumber mapper
  rw [h, number?_ofNumber] at hnumber
  exact (Option.some.inj hnumber).symm

end MapperName

namespace Descriptor

theorem map_mapper?_eq_some_iff {d : Descriptor} {n : Nat} :
    d.mapper?.map UInt16.toNat = some n ↔ MapperName.Spells d.board n ∧ n ≤ 65535 := by
  rw [Option.map_eq_some_iff]
  constructor
  · rintro ⟨mapper, hmapper, rfl⟩
    exact ⟨MapperName.number?_eq_some_iff.mp hmapper, Nat.le_of_lt_succ mapper.toNat_lt⟩
  · rintro ⟨hspells, hle⟩
    have htoNat := UInt16.toNat_ofNat_of_lt' (Nat.lt_succ_of_le hle)
    rw [← htoNat] at hspells
    exact ⟨_, MapperName.number?_eq_some_iff.mpr hspells, htoNat⟩

end Descriptor

/-- A descriptor has a mapper number just where its board spells one of sixteen bits: the lead, a
plus sign or none, any zeros, and the digits of the number. Any other board has none. A descriptor
that is made from a number has that number, so that no two numbers make the same one. -/
theorem mapper_inverts_generic (d : Descriptor) :
    (∀ n : Nat, d.mapper?.map UInt16.toNat = some n ↔ MapperName.Spells d.board n ∧ n ≤ 65535) ∧
    (d.mapper? = none ↔ ¬ ∃ n, MapperName.Spells d.board n ∧ n ≤ 65535) ∧
    (∀ mapper : UInt16, d.mapper? = some mapper ↔
      ∃ (sign : List Char) (zeros : Nat), (sign = [] ∨ sign = ['+']) ∧
        d.board.toList = "MAPPER".toList ++ sign ++
          (List.replicate zeros '0' ++ Nat.toDigits 10 mapper.toNat)) ∧
    ∀ prgSize chrSize : Nat,
      (∀ mapper, (Descriptor.generic mapper prgSize chrSize).mapper? = some mapper) ∧
      Function.Injective fun mapper => Descriptor.generic mapper prgSize chrSize := by
  refine ⟨fun n => Descriptor.map_mapper?_eq_some_iff, ?_, ?_, ?_⟩
  · simp only [← Descriptor.map_mapper?_eq_some_iff, ← Option.isSome_iff_exists,
      Option.isSome_map, Option.not_isSome_iff_eq_none]
  · intro mapper
    exact MapperName.number?_eq_some_iff.trans MapperName.spells_iff_zeros
  · intro prgSize chrSize
    refine ⟨MapperName.number?_ofNumber, ?_⟩
    intro mapper mapper' h
    exact MapperName.ofNumber_injective (congrArg Descriptor.board h)

end GamePak
