import BallyOS.Library.Numeral

/-! Binary32 values, and how the C library prints them with `%.6f` and reads
them with `strtof`. A finite value is a magnitude in units of the smallest
subnormal, 2^-149; the not-a-numbers are one value. -/
namespace BallyOS.Library

/-- The integer nearest to `a / b`, the even one of two. -/
def roundEven (a b : Nat) : Nat :=
  if 2 * (a % b) < b then a / b
  else if b < 2 * (a % b) then a / b + 1
  else a / b + a / b % 2

/-- The distance of the values around a magnitude: 24 bits are kept. -/
def spacing (units : Nat) : Nat := 2 ^ (units.log2 - 23)

structure Magnitude where
  units : Nat
  spaced : units % spacing units = 0
  bounded : units < 2 ^ 128 * 2 ^ 149
deriving DecidableEq

/-- A ratio rounded to 24 bits, without a bound. -/
def nearestUnits (a b : Nat) : Nat :=
  let step := spacing (a * 2 ^ 149 / b)
  roundEven (a * 2 ^ 149) (b * step) * step

inductive Binary32
  | nan
  | infinite (negative : Bool)
  | finite (negative : Bool) (magnitude : Magnitude)
deriving DecidableEq

private theorem roundEven_le (a b : Nat) : roundEven a b ≤ a / b + 1 := by
  unfold roundEven
  have bit := Nat.mod_lt (a / b) (by decide : 2 > 0)
  split
  · omega
  · split <;> omega

/-- Rounding at most doubles. -/
theorem roundEven_mul_le (a b : Nat) : roundEven a b * b ≤ 2 * a := by
  have parts := Nat.div_add_mod a b
  rw [Nat.mul_comm] at parts
  have whole : a / b * b ≤ a := Nat.div_mul_le_self a b
  unfold roundEven
  split
  · omega
  · rename_i notDown
    have up : (a / b + 1) * b ≤ 2 * a := by
      rw [Nat.add_mul, Nat.one_mul]
      omega
    split
    · exact up
    · rcases Nat.mod_two_eq_zero_or_one (a / b) with even | odd
      · rw [even, Nat.add_zero]
        omega
      · rw [odd]
        exact up

/-- Rounding only sees the ratio. -/
theorem roundEven_mul (positive : 0 < c) (a b : Nat) :
    roundEven (a * c) (b * c) = roundEven a b := by
  unfold roundEven
  rw [Nat.mul_div_mul_right a b positive, Nat.mul_mod_mul_right, ← Nat.mul_assoc]
  simp only [Nat.mul_lt_mul_right positive]

private theorem roundEven_exact (positive : 0 < b) (n : Nat) : roundEven (n * b) b = n := by
  unfold roundEven
  rw [Nat.mul_mod_left, Nat.mul_div_cancel n positive, if_pos (by omega)]

private theorem nearestUnits_mul (positive : 0 < c) (a b : Nat) :
    nearestUnits (a * c) (b * c) = nearestUnits a b := by
  unfold nearestUnits
  have scaled : a * c * 2 ^ 149 = a * 2 ^ 149 * c := Nat.mul_right_comm _ _ _
  have ratio : a * 2 ^ 149 * c / (b * c) = a * 2 ^ 149 / b :=
    Nat.mul_div_mul_right _ _ positive
  rw [scaled, ratio]
  dsimp only
  rw [Nat.mul_right_comm b c, roundEven_mul positive]

private theorem nearestUnits_le (a b : Nat) : nearestUnits a b * b ≤ 2 * (a * 2 ^ 149) := by
  have doubled := roundEven_mul_le (a * 2 ^ 149) (b * spacing (a * 2 ^ 149 / b))
  unfold nearestUnits
  dsimp only
  rwa [Nat.mul_assoc, Nat.mul_comm (spacing _) b]

private theorem spacing_dvd {m k : Nat} (fits : m ≤ 2 ^ 24) : spacing (m * 2 ^ k) ∣ m * 2 ^ k := by
  unfold spacing
  rcases Nat.eq_zero_or_pos m with rfl | positive
  · simp
  · have solid : m * 2 ^ k ≠ 0 := Nat.ne_of_gt (Nat.mul_pos positive (Nat.two_pow_pos k))
    rcases Nat.lt_or_eq_of_le fits with below | rfl
    · have top : m * 2 ^ k < 2 ^ (24 + k) := by
        rw [Nat.pow_add]
        exact Nat.mul_lt_mul_of_pos_right below (Nat.two_pow_pos k)
      have log := (Nat.log2_lt solid).mpr top
      exact Nat.dvd_mul_left_of_dvd (Nat.pow_dvd_pow 2 (by omega)) m
    · rw [← Nat.pow_add, Nat.log2_two_pow]
      exact Nat.pow_dvd_pow 2 (by omega)

private theorem nearestUnits_spaced (a b : Nat) :
    nearestUnits a b % spacing (nearestUnits a b) = 0 := by
  have fits : roundEven (a * 2 ^ 149) (b * spacing (a * 2 ^ 149 / b)) ≤ 2 ^ 24 := by
    have rounded := roundEven_le (a * 2 ^ 149) (b * spacing (a * 2 ^ 149 / b))
    rw [← Nat.div_div_eq_div_mul] at rounded
    generalize a * 2 ^ 149 / b = n at rounded
    have kept : n / spacing n < 2 ^ 24 := by
      apply (Nat.div_lt_iff_lt_mul (Nat.two_pow_pos _)).mpr
      rw [← Nat.pow_add]
      exact Nat.lt_of_lt_of_le Nat.lt_log2_self (Nat.pow_le_pow_right (by decide) (by omega))
    omega
  exact Nat.mod_eq_zero_of_dvd (spacing_dvd fits)

/-- The value nearest to a ratio, an infinity when it is too large. -/
def Binary32.ofRatio (negative : Bool) (a b : Nat) : Binary32 :=
  if bounded : nearestUnits a b < 2 ^ 128 * 2 ^ 149 then
    .finite negative ⟨nearestUnits a b, nearestUnits_spaced a b, bounded⟩
  else .infinite negative

/-- `n * base ^ exponent`, rounded. -/
def Binary32.ofScaled (negative : Bool) (base n : Nat) (exponent : Int) : Binary32 :=
  if 0 ≤ exponent then ofRatio negative (n * base ^ exponent.toNat) 1
  else ofRatio negative n (base ^ (-exponent).toNat)

/-- Whether a text starts with a word, in either case. -/
def startsWith : List Char → List Char → Bool
  | [], _ => true
  | _ :: _, [] => false
  | letter :: word, c :: text => (c = letter || c = letter.toUpper) && startsWith word text

def skipPayload : List Char → List Char
  | '(' :: text =>
    match text.dropWhile fun c => c.isAlphanum || c = '_' with
    | ')' :: rest => rest
    | _ => '(' :: text
  | text => text

def readSpecial (negative : Bool) (text : List Char) : Option (Binary32 × List Char) :=
  if startsWith ['i', 'n', 'f', 'i', 'n', 'i', 't', 'y'] text then
    some (.infinite negative, text.drop 8)
  else if startsWith ['i', 'n', 'f'] text then some (.infinite negative, text.drop 3)
  else if startsWith ['n', 'a', 'n'] text then some (.nan, skipPayload (text.drop 3))
  else none

/-- Digits with an optional point: their value without it, and the places behind it. -/
def readPlaces (base : Nat) (text : List Char) : Option (Nat × Nat × List Char) :=
  let whole := text.takeWhile (digitValue · < base)
  match text.dropWhile (digitValue · < base) with
  | '.' :: behind =>
    let places := behind.takeWhile (digitValue · < base)
    if whole ++ places = [] then none
    else some (digitsValue base (whole ++ places), places.length,
      behind.dropWhile (digitValue · < base))
  | rest => if whole = [] then none else some (digitsValue base whole, 0, rest)

def readExponent (lower upper : Char) (text : List Char) : Int × List Char :=
  match text with
  | c :: rest =>
    let (negative, digits) := readSign rest
    let run := digits.takeWhile Char.isDigit
    if (c = lower ∨ c = upper) ∧ run ≠ [] then
      (if negative then -(digitsValue 10 run : Int) else digitsValue 10 run,
        digits.dropWhile Char.isDigit)
    else (0, text)
  | [] => (0, [])

def readHex (negative : Bool) : List Char → Option (Binary32 × List Char)
  | '0' :: x :: text =>
    if x = 'x' ∨ x = 'X' then
      (readPlaces 16 text).map fun (n, places, rest) =>
        let (exponent, rest) := readExponent 'p' 'P' rest
        (.ofScaled negative 2 n (exponent - 4 * places), rest)
    else none
  | _ => none

def readDecimal (negative : Bool) (text : List Char) : Option (Binary32 × List Char) :=
  (readPlaces 10 text).map fun (n, places, rest) =>
    let (exponent, rest) := readExponent 'e' 'E' rest
    (.ofScaled negative 10 n (exponent - places), rest)

def strtof (text : List Char) : Option (Binary32 × List Char) :=
  let (negative, unsigned) := readSign (text.dropWhile isSpace)
  readSpecial negative unsigned <|> readHex negative unsigned <|> readDecimal negative unsigned

/-- A magnitude in millionths. -/
def millionths (units : Nat) : Nat := roundEven (units * 10 ^ 6) (2 ^ 149)

/-- The six places behind the point. -/
def sixPlaces (millionths : Nat) : List Char :=
  List.leftpad 6 '0' (printUnsigned (millionths % 10 ^ 6))

def printPlaces (millionths : Nat) : List Char :=
  printUnsigned (millionths / 10 ^ 6) ++ '.' :: sixPlaces millionths

/-- `%.6f`. -/
def printFixed : Binary32 → List Char
  | .nan => ['n', 'a', 'n']
  | .infinite negative => (if negative then ['-'] else []) ++ ['i', 'n', 'f']
  | .finite negative magnitude =>
    (if negative then ['-'] else []) ++ printPlaces (millionths magnitude.units)

private theorem readPlaces_whole {whole : List Char} (decimal : ∀ c ∈ whole, c.isDigit = true)
    (solid : whole ≠ []) : readPlaces 10 whole = some (digitsValue 10 whole, 0, []) := by
  have every : ∀ c ∈ whole, decide (digitValue c < 10) = true := fun c member =>
    decide_eq_true (digitValue_lt_of_isDigit (decimal c member))
  unfold readPlaces
  dsimp only
  rw [List.takeWhile_eq_self_iff.mpr every, List.dropWhile_eq_nil_iff.mpr every]
  exact if_neg solid

private theorem readPlaces_point {whole places : List Char}
    (decimal : ∀ c ∈ whole, c.isDigit = true)
    (solid : whole ≠ []) (behind : ∀ c ∈ places, c.isDigit = true) :
    readPlaces 10 (whole ++ '.' :: places) =
      some (digitsValue 10 (whole ++ places), places.length, []) := by
  have every : ∀ {digits : List Char}, (∀ c ∈ digits, c.isDigit = true) →
      ∀ c ∈ digits, decide (digitValue c < 10) = true := fun decimal c member =>
    decide_eq_true (digitValue_lt_of_isDigit (decimal c member))
  have front : (whole ++ '.' :: places).takeWhile (fun c => decide (digitValue c < 10)) =
      whole := by
    rw [List.takeWhile_append_of_pos (every decimal), List.takeWhile_cons_of_neg (by decide),
      List.append_nil]
  have point : (whole ++ '.' :: places).dropWhile (fun c => decide (digitValue c < 10)) =
      '.' :: places := by
    rw [List.dropWhile_append_of_pos (every decimal), List.dropWhile_cons_of_neg (by decide)]
  unfold readPlaces
  rw [front, point]
  dsimp only
  split
  · rename_i after
    cases after
    rw [List.takeWhile_eq_self_iff.mpr (every behind),
      List.dropWhile_eq_nil_iff.mpr (every behind)]
    exact if_neg fun empty => solid (List.append_eq_nil_iff.mp empty).1
  · rename_i other
    exact absurd rfl (other places)

/-- A digit, and then digits and points only. -/
def PlainNumber : List Char → Prop
  | c :: rest => c.isDigit = true ∧ ∀ d ∈ rest, d.isDigit = true ∨ d = '.'
  | [] => False

private theorem startsWith_plain {text : List Char} {letter : Char} (plain : PlainNumber text)
    (small : letter.isDigit = false) (capital : letter.toUpper.isDigit = false)
    (word : List Char) : startsWith (letter :: word) text = false := by
  cases text with
  | nil => exact plain.elim
  | cons c rest =>
    have lower : c ≠ letter := by
      rintro rfl
      exact absurd plain.1 (by simp [small])
    have upper : c ≠ letter.toUpper := by
      rintro rfl
      exact absurd plain.1 (by simp [capital])
    simp [startsWith, lower, upper]

private theorem readSpecial_plain {text : List Char} (plain : PlainNumber text) (negative : Bool) :
    readSpecial negative text = none := by
  unfold readSpecial
  rw [startsWith_plain plain (by decide) (by decide),
    startsWith_plain plain (by decide) (by decide),
    startsWith_plain plain (by decide) (by decide)]
  rfl

private theorem readHex_plain {text : List Char} (plain : PlainNumber text) (negative : Bool) :
    readHex negative text = none := by
  unfold readHex
  split
  · rename_i x rest
    refine if_neg fun hex => ?_
    rcases plain.2 x List.mem_cons_self with digit | rfl
    · rcases hex with rfl | rfl <;> exact absurd digit (by decide)
    · exact absurd hex (by decide)
  · rfl

private theorem strtof_plain {text : List Char} (plain : PlainNumber text) (negative : Bool) :
    strtof ((if negative then ['-'] else []) ++ text) = readDecimal negative text := by
  have unsigned : ∀ sign, readSpecial sign text = none ∧ readHex sign text = none :=
    fun sign => ⟨readSpecial_plain plain sign, readHex_plain plain sign⟩
  cases negative with
  | true =>
    have sign : readSign ('-' :: text) = (true, text) := rfl
    simp only [↓reduceIte, List.singleton_append]
    unfold strtof
    rw [List.dropWhile_cons_of_neg (by decide), sign]
    dsimp only
    rw [(unsigned true).1, (unsigned true).2]
    rfl
  | false =>
    have start : text.dropWhile isSpace = text ∧ readSign text = (false, text) := by
      cases text with
      | nil => exact plain.elim
      | cons c rest =>
        refine ⟨List.dropWhile_cons_of_neg (by simp [isSpace_of_isDigit plain.1]), ?_⟩
        unfold readSign
        split
        · rename_i leads
          cases leads
          exact absurd plain.1 (by decide)
        · rename_i leads
          cases leads
          exact absurd plain.1 (by decide)
        · rfl
    simp only [Bool.false_eq_true, ↓reduceIte, List.nil_append]
    unfold strtof
    rw [start.1, start.2]
    dsimp only
    rw [(unsigned false).1, (unsigned false).2]
    rfl

private theorem ofScaled_places (negative : Bool) (n places : Nat) :
    Binary32.ofScaled negative 10 n (0 - places) = .ofRatio negative n (10 ^ places) := by
  unfold Binary32.ofScaled
  split
  · have none : places = 0 := by omega
    subst none
    simp
  · have back : (-(0 - (places : Int))).toNat = places := by omega
    rw [back]

private theorem readDecimal_whole {whole : List Char} (decimal : ∀ c ∈ whole, c.isDigit = true)
    (solid : whole ≠ []) (negative : Bool) :
    readDecimal negative whole = some (.ofRatio negative (digitsValue 10 whole) 1, []) := by
  unfold readDecimal
  rw [readPlaces_whole decimal solid]
  exact congrArg (fun value => some (value, [])) (ofScaled_places negative _ 0)

private theorem readDecimal_point {whole places : List Char}
    (decimal : ∀ c ∈ whole, c.isDigit = true)
    (solid : whole ≠ []) (behind : ∀ c ∈ places, c.isDigit = true) (negative : Bool) :
    readDecimal negative (whole ++ '.' :: places) =
      some (.ofRatio negative (digitsValue 10 (whole ++ places)) (10 ^ places.length), []) := by
  unfold readDecimal
  rw [readPlaces_point decimal solid behind]
  exact congrArg (fun value => some (value, [])) (ofScaled_places negative _ _)

private theorem ofRatio_mul (positive : 0 < c) (negative : Bool) (a b : Nat) :
    Binary32.ofRatio negative (a * c) (b * c) = .ofRatio negative a b := by
  unfold Binary32.ofRatio
  simp only [nearestUnits_mul positive]

theorem printUnsigned_length_le (positive : 0 < k) :
    (printUnsigned n).length ≤ k ↔ n < 10 ^ k :=
  Nat.length_toDigits_le_iff (by decide) positive

theorem sixPlaces_spec (millionths : Nat) :
    (sixPlaces millionths).length = 6 ∧ (∀ c ∈ sixPlaces millionths, c.isDigit = true) ∧
      digitsValue 10 (sixPlaces millionths) = millionths % 10 ^ 6 := by
  have few : (printUnsigned (millionths % 10 ^ 6)).length ≤ 6 :=
    (printUnsigned_length_le (by decide)).mpr (Nat.mod_lt _ (by decide))
  have digits : ∀ c ∈ sixPlaces millionths, c.isDigit = true := by
    intro c member
    rcases List.mem_append.mp member with zero | digit
    · rw [List.eq_of_mem_replicate zero]
      decide
    · exact isDigit_of_mem_printUnsigned digit
  refine ⟨?_, digits, ?_⟩
  · rw [sixPlaces, List.length_leftpad]
    omega
  · rw [digitsValue_eq_ofDigitChars _ digits]
    unfold sixPlaces List.leftpad
    rw [Nat.ofDigitChars_append, Nat.ofDigitChars_replicate_zero, Nat.mul_zero]
    exact Nat.ofDigitChars_ten_toDigits

private theorem millionths_split (millionths : Nat) :
    digitsValue 10 (printUnsigned (millionths / 10 ^ 6) ++ sixPlaces millionths) = millionths := by
  obtain ⟨length, _, value⟩ := sixPlaces_spec millionths
  rw [digitsValue_append, digitsValue_printUnsigned, length, value]
  omega

/-- A magnitude whose whole part has 24 digits or more is whole. -/
theorem millionths_whole (magnitude : Magnitude)
    (long : 10 ^ 23 ≤ millionths magnitude.units / 10 ^ 6) :
    ∃ whole, magnitude.units = whole * 2 ^ 149 ∧
      millionths magnitude.units = whole * 10 ^ 6 := by
  have rounded := roundEven_le (magnitude.units * 10 ^ 6) (2 ^ 149)
  have ratio := Nat.div_mul_le_self (magnitude.units * 10 ^ 6) (2 ^ 149)
  have big : 2 ^ 172 ≤ magnitude.units := by
    unfold millionths at long
    omega
  have log : 172 ≤ magnitude.units.log2 := (Nat.le_log2 (by omega)).mpr big
  have divides : 2 ^ 149 ∣ magnitude.units :=
    Nat.dvd_trans (Nat.pow_dvd_pow 2 (by omega)) (Nat.dvd_of_mod_eq_zero magnitude.spaced)
  obtain ⟨whole, same⟩ := divides
  rw [Nat.mul_comm] at same
  refine ⟨whole, same, ?_⟩
  unfold millionths
  rw [same, Nat.mul_right_comm]
  exact roundEven_exact (by decide) _

/-- A value whose `%.6f` text in a buffer with so much room reads back as it: the
digits before the point fit, and no other value is nearer to the six places. -/
def Binary32.Kept (room : Nat) : Binary32 → Prop
  | .nan => True
  | .infinite _ => True
  | .finite negative magnitude =>
    millionths magnitude.units / 10 ^ 6 < 10 ^ (if negative then room - 1 else room) ∧
      ofRatio negative (millionths magnitude.units) (10 ^ 6) = .finite negative magnitude

instance (room : Nat) : (value : Binary32) → Decidable (value.Kept room)
  | .nan => inferInstanceAs (Decidable True)
  | .infinite _ => inferInstanceAs (Decidable True)
  | .finite negative magnitude => inferInstanceAs (Decidable
      (millionths magnitude.units / 10 ^ 6 < 10 ^ (if negative then room - 1 else room) ∧
        Binary32.ofRatio negative (millionths magnitude.units) (10 ^ 6) =
          .finite negative magnitude))

/-- A part of a whole number's digits is too small for it. -/
theorem ofRatio_cut (negative : Bool) (magnitude : Magnitude) (enough : 23 ≤ n)
    (long : n < (printUnsigned (millionths magnitude.units / 10 ^ 6)).length) :
    Binary32.ofRatio negative
        (digitsValue 10 ((printUnsigned (millionths magnitude.units / 10 ^ 6)).take n)) 1 ≠
      .finite negative magnitude := by
  have large : 10 ^ 23 ≤ millionths magnitude.units / 10 ^ 6 := by
    refine Nat.le_of_not_lt fun small => ?_
    have := (printUnsigned_length_le (by decide)).mpr small
    omega
  obtain ⟨whole, units, value⟩ := millionths_whole magnitude large
  have front : millionths magnitude.units / 10 ^ 6 = whole := by
    rw [value, Nat.mul_div_cancel _ (by decide)]
  rw [front] at large long ⊢
  have split := digitsValue_append 10 ((printUnsigned whole).take n) ((printUnsigned whole).drop n)
  rw [List.take_append_drop, digitsValue_printUnsigned, List.length_drop] at split
  have tenfold : 10 ≤ 10 ^ ((printUnsigned whole).length - n) :=
    Nat.le_self_pow (by omega) 10
  have cut := Nat.mul_le_mul_left (digitsValue 10 ((printUnsigned whole).take n)) tenfold
  intro same
  unfold Binary32.ofRatio at same
  split at same
  · have nearest : nearestUnits (digitsValue 10 ((printUnsigned whole).take n)) 1 =
        magnitude.units := congrArg (fun value => match value with
          | .finite _ magnitude => magnitude.units
          | _ => 0) same
    have bound := nearestUnits_le (digitsValue 10 ((printUnsigned whole).take n)) 1
    rw [nearest, units] at bound
    omega
  · contradiction

/-- A ratio of a whole number of millionths. -/
theorem ofRatio_whole (negative : Bool) (whole places : Nat) :
    Binary32.ofRatio negative (whole * 10 ^ places) (10 ^ places) = .ofRatio negative whole 1 := by
  have same := ofRatio_mul (c := 10 ^ places) (Nat.pow_pos (by decide)) negative whole 1
  rwa [Nat.one_mul] at same

/-- Places that are cut off a whole number are zeros. -/
theorem sixPlaces_take {k : Nat} (none : k % 10 ^ 6 = 0) (j : Nat) :
    digitsValue 10 ((sixPlaces k).take j) = 0 := by
  obtain ⟨_, _, value⟩ := sixPlaces_spec k
  have split := digitsValue_append 10 ((sixPlaces k).take j)
    ((sixPlaces k).drop j)
  rw [List.take_append_drop, value, none] at split
  have positive : 0 < 10 ^ ((sixPlaces k).drop j).length := Nat.pow_pos (by decide)
  refine (Nat.mul_eq_zero.mp ?_).resolve_right (Nat.ne_of_gt positive)
  omega

/-- As long as the digits before the point fit, the text means the six places. -/
theorem readDecimal_fits (negative : Bool) (magnitude : Magnitude) (enough : 30 ≤ n)
    (fits : (printUnsigned (millionths magnitude.units / 10 ^ 6)).length ≤ n) :
    readDecimal negative ((printPlaces (millionths magnitude.units)).take n) =
      some (.ofRatio negative (millionths magnitude.units) (10 ^ 6), []) := by
  have decimal : ∀ c ∈ printUnsigned (millionths magnitude.units / 10 ^ 6), c.isDigit = true :=
    fun c => isDigit_of_mem_printUnsigned
  have solid := printUnsigned_ne_nil (millionths magnitude.units / 10 ^ 6)
  obtain ⟨length, places, _⟩ := sixPlaces_spec (millionths magnitude.units)
  unfold printPlaces
  rw [List.take_append, List.take_of_length_le fits]
  by_cases every : (printUnsigned (millionths magnitude.units / 10 ^ 6)).length + 7 ≤ n
  · rw [List.take_of_length_le (by rw [List.length_cons, length]; omega),
      readDecimal_point decimal solid places, millionths_split, length]
  · have large : 10 ^ 23 ≤ millionths magnitude.units / 10 ^ 6 := by
      refine Nat.le_of_not_lt fun small => ?_
      have := (printUnsigned_length_le (by decide)).mpr small
      omega
    obtain ⟨whole, _, value⟩ := millionths_whole magnitude large
    have front : millionths magnitude.units / 10 ^ 6 = whole := by
      rw [value, Nat.mul_div_cancel _ (by decide)]
    have zero : millionths magnitude.units % 10 ^ 6 = 0 := by
      rw [value, Nat.mul_mod_left]
    rw [front] at decimal solid ⊢
    have meant : Binary32.ofRatio negative (millionths magnitude.units) (10 ^ 6) =
        .ofRatio negative whole 1 := by
      rw [value, ofRatio_whole]
    rw [meant]
    cases room : n - (printUnsigned whole).length with
    | zero =>
      rw [List.take_zero, List.append_nil, readDecimal_whole decimal solid,
        digitsValue_printUnsigned]
    | succ j =>
      have cut : ∀ c ∈ (sixPlaces (millionths magnitude.units)).take j, c.isDigit = true :=
        fun c member => places c (List.mem_of_mem_take member)
      rw [List.take_succ_cons, readDecimal_point decimal solid cut, digitsValue_append,
        digitsValue_printUnsigned, sixPlaces_take zero, Nat.add_zero, ofRatio_whole]

private theorem printPlaces_plain (millionths : Nat) (positive : 0 < n) :
    PlainNumber ((printPlaces millionths).take n) := by
  obtain ⟨_, places, _⟩ := sixPlaces_spec millionths
  unfold printPlaces
  cases digits : printUnsigned (millionths / 10 ^ 6) with
  | nil => exact absurd digits (printUnsigned_ne_nil _)
  | cons c rest =>
    have decimal : ∀ d ∈ c :: rest, d.isDigit = true := fun d member =>
      isDigit_of_mem_printUnsigned (digits ▸ member)
    cases n with
    | zero => exact absurd positive (Nat.lt_irrefl 0)
    | succ n =>
      rw [List.cons_append, List.take_succ_cons]
      refine ⟨decimal c List.mem_cons_self, fun d member => ?_⟩
      have within := List.mem_of_mem_take member
      simp only [List.mem_append, List.mem_cons] at within
      rcases within with digit | rfl | digit
      · exact Or.inl (decimal d (List.mem_cons_of_mem c digit))
      · exact Or.inr rfl
      · exact Or.inl (places d digit)

/-- What `%.6f` prints into a buffer reads as a value, and as the printed one
exactly when it is kept. -/
theorem strtof_printFixed (room : Nat) (enough : 31 ≤ room) (value : Binary32) :
    ∃ read, strtof ((printFixed value).take room) = some (read, []) ∧
      (read = value ↔ value.Kept room) := by
  cases value with
  | nan =>
    have short : ['n', 'a', 'n'].length ≤ room := Nat.le_trans (by decide) enough
    refine ⟨.nan, ?_, iff_of_true rfl trivial⟩
    rw [printFixed, List.take_of_length_le short]
    rfl
  | infinite negative =>
    refine ⟨.infinite negative, ?_, iff_of_true rfl trivial⟩
    cases negative with
    | true =>
      have short : ['-', 'i', 'n', 'f'].length ≤ room := Nat.le_trans (by decide) enough
      rw [printFixed]
      simp only [↓reduceIte, List.cons_append, List.nil_append]
      rw [List.take_of_length_le short]
      rfl
    | false =>
      have short : ['i', 'n', 'f'].length ≤ room := Nat.le_trans (by decide) enough
      rw [printFixed]
      simp only [Bool.false_eq_true, ↓reduceIte, List.nil_append]
      rw [List.take_of_length_le short]
      rfl
  | finite negative magnitude =>
    have taken : ∃ n, (n = if negative then room - 1 else room) ∧
        (printFixed (.finite negative magnitude)).take room =
          (if negative then ['-'] else []) ++
            (printPlaces (millionths magnitude.units)).take n := by
      refine ⟨_, rfl, ?_⟩
      unfold printFixed
      rw [List.take_append]
      cases negative with
      | true =>
        have short : ['-'].length ≤ room := Nat.le_trans (by decide) enough
        simp only [↓reduceIte]
        rw [List.take_of_length_le short]
        rfl
      | false => simp
    obtain ⟨n, count, text⟩ := taken
    have long : 30 ≤ n := by
      rw [count]
      split <;> omega
    rw [text, strtof_plain (printPlaces_plain _ (by omega)), Binary32.Kept, ← count]
    by_cases fits : (printUnsigned (millionths magnitude.units / 10 ^ 6)).length ≤ n
    · refine ⟨_, readDecimal_fits negative magnitude long fits, ?_⟩
      have small := (printUnsigned_length_le (by omega)).mp fits
      exact ⟨fun same => ⟨small, same⟩, And.right⟩
    · have decimal : ∀ c ∈ (printUnsigned (millionths magnitude.units / 10 ^ 6)).take n,
          c.isDigit = true :=
        fun c member => isDigit_of_mem_printUnsigned (List.mem_of_mem_take member)
      have solid : (printUnsigned (millionths magnitude.units / 10 ^ 6)).take n ≠ [] := by
        apply List.ne_nil_of_length_pos
        rw [List.length_take]
        omega
      have front : (printPlaces (millionths magnitude.units)).take n =
          (printUnsigned (millionths magnitude.units / 10 ^ 6)).take n :=
        List.take_append_of_le_length (by omega)
      rw [front]
      refine ⟨_, readDecimal_whole decimal solid negative, ?_⟩
      refine iff_of_false (ofRatio_cut negative magnitude (by omega) (by omega)) fun kept => ?_
      exact fits ((printUnsigned_length_le (by omega)).mpr kept.1)

end BallyOS.Library
