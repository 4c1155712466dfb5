/-
  SchemaDrift/Text/Decimal.lean
  =============================
  **Decimal numerals.**

  `writeDecimal` gives the digits of a number without leading zeros; `readDecimal`
  reads a text of digits alone.  Main statement: `readDecimal_writeDecimal`, what is
  written reads back.  `readWord` is the reader for lengths, precisions and scales:
  it admits a leading plus sign and refuses what a 64-bit word does not hold.
-/

namespace SchemaDrift

def digitChar (d : Nat) : Char := Char.ofNat (48 + d)

def digitValue (c : Char) : Nat := c.toNat - 48

/-- The digits of `n`, most significant first, without leading zeros. -/
def writeDecimal (n : Nat) : List Char :=
  if n < 10 then [digitChar n] else writeDecimal (n / 10) ++ [digitChar (n % 10)]
termination_by n
decreasing_by omega

/-- The number that a list of digits denotes. -/
def digitsValue (ds : List Char) : Nat := ds.foldl (fun n c => 10 * n + digitValue c) 0

/-- Reads a text of one or more digits and nothing else. -/
def readDecimal (cs : List Char) : Option Nat :=
  if cs.isEmpty then none
  else if cs.all Char.isDigit then some (digitsValue cs) else none

/-- The number of different 64-bit words. -/
def wordBound : Nat := UInt64.size

/-- Reads a 64-bit word: digits, after at most one plus sign. -/
def readWord (cs : List Char) : Option Nat :=
  let digits := match cs with
    | '+' :: rest => rest
    | _ => cs
  (readDecimal digits).filter (· < wordBound)

/-- The decimal numeral of `n` as a text. -/
def decimal (n : Nat) : String := String.ofList (writeDecimal n)

theorem digitChar_isDigit {d : Nat} (h : d < 10) : (digitChar d).isDigit = true := by
  revert d; decide

theorem digitValue_digitChar {d : Nat} (h : d < 10) : digitValue (digitChar d) = d := by
  revert d; decide

theorem writeDecimal_ne_nil (n : Nat) : writeDecimal n ≠ [] := by
  rw [writeDecimal]; split <;> simp

/-- What holds of the ten digits holds of every character of a numeral. -/
theorem forall_mem_writeDecimal {P : Char → Prop} (h : ∀ d < 10, P (digitChar d)) (n : Nat) :
    ∀ c ∈ writeDecimal n, P c := by
  induction n using Nat.strongRecOn with
  | ind n ih =>
    rw [writeDecimal]
    intro c hc
    split at hc
    next hn =>
      rw [List.mem_singleton.1 hc]
      exact h n hn
    next hn =>
      rcases List.mem_append.1 hc with hc | hc
      · exact ih (n / 10) (by omega) c hc
      · rw [List.mem_singleton.1 hc]
        exact h (n % 10) (Nat.mod_lt n (by omega))

theorem writeDecimal_all_isDigit (n : Nat) : (writeDecimal n).all Char.isDigit = true :=
  List.all_eq_true.2 (forall_mem_writeDecimal (fun _ => digitChar_isDigit) n)

theorem digitsValue_writeDecimal (n : Nat) : digitsValue (writeDecimal n) = n := by
  induction n using Nat.strongRecOn with
  | ind n ih =>
    rw [writeDecimal]
    split
    next h => simp [digitsValue, digitValue_digitChar h]
    next h =>
      have hq : List.foldl (fun n c => 10 * n + digitValue c) 0 (writeDecimal (n / 10)) = n / 10 :=
        ih (n / 10) (by omega)
      simp only [digitsValue, List.foldl_append, List.foldl_cons, List.foldl_nil, hq,
        digitValue_digitChar (Nat.mod_lt n (by omega : 10 > 0))]
      omega

theorem readDecimal_writeDecimal (n : Nat) : readDecimal (writeDecimal n) = some n := by
  simp [readDecimal, writeDecimal_ne_nil, writeDecimal_all_isDigit, digitsValue_writeDecimal]

end SchemaDrift
