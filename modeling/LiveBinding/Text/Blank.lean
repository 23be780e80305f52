/-! Blank characters and trimming.

A character is blank if it has the Unicode property White_Space. Trimming removes
the blank characters at both ends and keeps everything between. -/
namespace LiveBinding.Text

/-- The property White_Space. -/
def isBlank (c : Char) : Bool :=
  let n := c.toNat
  (9 ≤ n && n ≤ 13) || n == 0x20 || n == 0x85 || n == 0xA0 || n == 0x1680 ||
    (0x2000 ≤ n && n ≤ 0x200A) || n == 0x2028 || n == 0x2029 || n == 0x202F || n == 0x205F ||
    n == 0x3000

def dropBlanks (cs : List Char) : List Char := cs.dropWhile isBlank

/-- The text without the blanks at its ends. -/
def trim (cs : List Char) : List Char := (dropBlanks (dropBlanks cs).reverse).reverse

theorem dropBlanks_append (blanks cs : List Char) (h : ∀ c ∈ blanks, isBlank c) :
    dropBlanks (blanks ++ cs) = dropBlanks cs := by
  induction blanks with
  | nil => rfl
  | cons c rest ih =>
    have hc : isBlank c = true := h c (List.mem_cons_self ..)
    simpa [dropBlanks, List.dropWhile, hc] using ih fun d hd => h d (List.mem_cons_of_mem c hd)

end LiveBinding.Text
