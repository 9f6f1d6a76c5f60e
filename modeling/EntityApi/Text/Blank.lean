/-!
Blanks and line ends. A blank is one of the 29 code points that Unicode counts as white space or as
a separator of text blocks; `trim` takes them off both ends. `lines` cuts a text at every line end,
where a carriage return and a line feed together are one end.
-/

namespace EntityApi.Text

def isBlank (c : Char) : Bool :=
  let n := c.toNat
  decide (9 ≤ n ∧ n ≤ 13) || decide (28 ≤ n ∧ n ≤ 32) || n == 0x85 || n == 0xA0 || n == 0x1680 ||
    decide (0x2000 ≤ n ∧ n ≤ 0x200A) || n == 0x2028 || n == 0x2029 || n == 0x202F || n == 0x205F ||
    n == 0x3000

def trimLeft (s : List Char) : List Char := s.dropWhile isBlank

def trimRight (s : List Char) : List Char := (trimLeft s.reverse).reverse

def trimChars (s : List Char) : List Char := trimRight (trimLeft s)

def trim (s : String) : String := String.ofList (trimChars s.toList)

/-- The characters that end a line. -/
def isLineEnd (c : Char) : Bool :=
  let n := c.toNat
  decide (10 ≤ n ∧ n ≤ 13) || decide (28 ≤ n ∧ n ≤ 30) || n == 0x85 || n == 0x2028 || n == 0x2029

/-- The first line of a non-empty text, without its end, and what follows the end. -/
def takeLine : List Char → List Char × List Char
  | [] => ([], [])
  | '\r' :: '\n' :: rest => ([], rest)
  | c :: rest =>
    if isLineEnd c then ([], rest) else let (l, r) := takeLine rest; (c :: l, r)

theorem takeLine_rest_le (s : List Char) : (takeLine s).2.length ≤ s.length := by
  fun_induction takeLine s <;> simp_all <;> omega

theorem takeLine_rest_lt {s : List Char} (h : s ≠ []) : (takeLine s).2.length < s.length := by
  fun_induction takeLine s with
  | case1 => exact absurd rfl h
  | case2 => simp only [List.length_cons]; omega
  | case3 => simp
  | case4 c rest _ _ l r hlr _ =>
    have := takeLine_rest_le rest
    rw [hlr] at this
    simpa using Nat.lt_succ_of_le this

/-- The lines of a text; an end at the very end of the text opens no further line. -/
def lineChars : List Char → List (List Char)
  | [] => []
  | c :: s =>
    let parts := takeLine (c :: s)
    parts.1 :: lineChars parts.2
termination_by s => s.length
decreasing_by exact takeLine_rest_lt (List.cons_ne_nil c s)

def lines (s : String) : List String := (lineChars s.toList).map String.ofList

end EntityApi.Text
