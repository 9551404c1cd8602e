/-! # White space

Which characters are blank, and the operations that trim, remove and collapse them. A text is
blank when every character of it is.
-/
namespace DtdConformance.Text
set_option autoImplicit false

/-- The blank characters: the ASCII controls that separate, the plain space, and the separators of
the other blocks. A zero-width space and a byte order mark are not among them. -/
def isBlank (c : Char) : Bool :=
  let n := c.toNat
  (0x09 ≤ n && n ≤ 0x0D) || (0x1C ≤ n && n ≤ 0x20) || n == 0x85 || n == 0xA0 || n == 0x1680 ||
    (0x2000 ≤ n && n ≤ 0x200A) || n == 0x2028 || n == 0x2029 || n == 0x202F || n == 0x205F ||
    n == 0x3000

theorem isBlank_of_isWhitespace {c : Char} (h : c.isWhitespace = true) : isBlank c = true := by
  simp only [Char.isWhitespace, Bool.or_eq_true, decide_eq_true_eq] at h
  rcases h with ((h | h) | h) | h <;> subst h <;> decide

def trimLeft (cs : List Char) : List Char := cs.dropWhile isBlank

def trimRight (cs : List Char) : List Char := (cs.reverse.dropWhile isBlank).reverse

def trim (cs : List Char) : List Char := trimRight (trimLeft cs)

def removeBlanks (cs : List Char) : List Char := cs.filter (fun c => !isBlank c)

def hasText (cs : List Char) : Bool := cs.any (fun c => !isBlank c)

/-- Replaces every run of blanks by one space. The flag says that the last character written
stands for a run. -/
def collapseRuns (inRun : Bool) : List Char → List Char
  | [] => []
  | c :: cs =>
    if isBlank c then (if inRun then collapseRuns true cs else ' ' :: collapseRuns true cs)
    else c :: collapseRuns false cs

def normalizeBlanks (cs : List Char) : List Char := collapseRuns false (trim cs)

/-- The maximal runs of characters that are not blank. The accumulator holds the current run in
reverse. -/
def wordsFrom (acc : List Char) : List Char → List (List Char)
  | [] => if acc.isEmpty then [] else [acc.reverse]
  | c :: cs =>
    if isBlank c then
      (if acc.isEmpty then wordsFrom [] cs else acc.reverse :: wordsFrom [] cs)
    else wordsFrom (c :: acc) cs

def words (cs : List Char) : List (List Char) := wordsFrom [] cs

theorem hasText_eq_true_iff (cs : List Char) :
    hasText cs = true ↔ ∃ c ∈ cs, isBlank c = false := by
  simp [hasText]

theorem mem_removeBlanks_iff (c : Char) (cs : List Char) :
    c ∈ removeBlanks cs ↔ c ∈ cs ∧ isBlank c = false := by
  simp [removeBlanks]

theorem removeBlanks_append (xs ys : List Char) :
    removeBlanks (xs ++ ys) = removeBlanks xs ++ removeBlanks ys := by
  simp [removeBlanks]

end DtdConformance.Text
