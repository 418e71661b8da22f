/-!
# Texts

Keywords, names and types are compared without regard to the case of their ASCII letters, declared
types are searched for parts, and tokens are cut out of a text by byte offsets.
-/

namespace TypedSql.Text

/-! ## Letter case

Only ASCII letters have a case.  Every other character stands for itself, so `É` and `é` are
different. -/

/-- The text with its ASCII letters in lower case: the form under which a name is looked up. -/
def lowerCase (s : String) : String := String.ofList (s.toList.map Char.toLower)

/-- Both texts are the same up to the case of ASCII letters. -/
def eqIgnoreCase (a b : String) : Bool := lowerCase a == lowerCase b

@[simp] theorem toList_lowerCase (s : String) :
    (lowerCase s).toList = s.toList.map Char.toLower := by
  simp [lowerCase]

theorem eqIgnoreCase_iff {a b : String} : eqIgnoreCase a b = true ↔ lowerCase a = lowerCase b := by
  simp [eqIgnoreCase]

/-! ## Parts -/

/-- `part` occurs somewhere in the text. -/
def hasPart (part : List Char) : List Char → Bool
  | [] => part.isEmpty
  | c :: cs => part.isPrefixOf (c :: cs) || hasPart part cs

/-- One of the lower-case `parts` occurs in the text, in any case. -/
def mentionsAny (parts : List String) (text : String) : Bool :=
  parts.any fun part => hasPart part.toList (lowerCase text).toList

/-! ## Byte offsets

Offsets into a text count the bytes of its UTF-8 form.  An offset inside a character belongs to
that character: `takeBytes n` holds every character that starts before byte `n`. -/

/-- The number of bytes of the UTF-8 form. -/
def byteLength : List Char → Nat
  | [] => 0
  | c :: cs => c.utf8Size + byteLength cs

/-- The characters that start before byte `n`. -/
def takeBytes : Nat → List Char → List Char
  | _, [] => []
  | n, c :: cs => if n = 0 then [] else c :: takeBytes (n - c.utf8Size) cs

/-- The characters that start at byte `n` or after it. -/
def dropBytes : Nat → List Char → List Char
  | _, [] => []
  | n, c :: cs => if n = 0 then c :: cs else dropBytes (n - c.utf8Size) cs

/-- The characters from byte `start` up to byte `stop`. -/
def slice (text : String) (start stop : Nat) : String :=
  String.ofList (takeBytes (stop - start) (dropBytes start text.toList))

theorem takeBytes_append_dropBytes (n : Nat) (cs : List Char) :
    takeBytes n cs ++ dropBytes n cs = cs := by
  induction cs generalizing n with
  | nil => rfl
  | cons c cs ih =>
      by_cases h : n = 0
      · simp [takeBytes, dropBytes, h]
      · simp [takeBytes, dropBytes, h, ih]

theorem byteLength_append (xs ys : List Char) :
    byteLength (xs ++ ys) = byteLength xs + byteLength ys := by
  induction xs with
  | nil => simp [byteLength]
  | cons c cs ih => simp [byteLength, ih, Nat.add_assoc]

theorem takeBytes_byteLength (xs ys : List Char) :
    takeBytes (byteLength xs) (xs ++ ys) = xs := by
  induction xs with
  | nil => cases ys <;> simp [byteLength, takeBytes]
  | cons c cs ih =>
      have h : ¬ c.utf8Size + byteLength cs = 0 := by have := c.utf8Size_pos; omega
      rw [byteLength, List.cons_append, takeBytes, if_neg h, Nat.add_sub_cancel_left, ih]

theorem dropBytes_byteLength (xs ys : List Char) :
    dropBytes (byteLength xs) (xs ++ ys) = ys := by
  induction xs with
  | nil => cases ys <;> simp [byteLength, dropBytes]
  | cons c cs ih =>
      have h : ¬ c.utf8Size + byteLength cs = 0 := by have := c.utf8Size_pos; omega
      rw [byteLength, List.cons_append, dropBytes, if_neg h, Nat.add_sub_cancel_left, ih]

end TypedSql.Text
