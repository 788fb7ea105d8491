/-!
# Cutting a text to a number of bytes

Diagnostics may quote long pieces of what was read, so they are cut.  The limit
counts UTF-8 bytes, and the cut falls between two characters: the kept part is
the longest run of whole characters that fits.
-/

namespace OpSchema.Text

/-- The number of UTF-8 bytes of a run of characters. -/
def byteCount (cs : List Char) : Nat :=
  cs.foldl (fun n c => n + c.utf8Size) 0

private theorem foldl_utf8Size (cs : List Char) (n : Nat) :
    cs.foldl (fun n c => n + c.utf8Size) n = n + byteCount cs := by
  induction cs generalizing n with
  | nil => rfl
  | cons c cs ih =>
      rw [byteCount, List.foldl_cons, List.foldl_cons, ih, ih, Nat.zero_add, Nat.add_assoc]

@[simp] theorem byteCount_nil : byteCount [] = 0 := rfl

@[simp] theorem byteCount_cons (c : Char) (cs : List Char) :
    byteCount (c :: cs) = c.utf8Size + byteCount cs := by
  rw [byteCount, List.foldl_cons, foldl_utf8Size, Nat.zero_add]

@[simp] theorem byteCount_append (cs ds : List Char) :
    byteCount (cs ++ ds) = byteCount cs + byteCount ds := by
  induction cs with
  | nil => simp
  | cons c cs ih => rw [List.cons_append, byteCount_cons, byteCount_cons, ih, Nat.add_assoc]

/-- The longest initial run of whole characters with at most `room` bytes. -/
def fitting : Nat → List Char → List Char
  | _, [] => []
  | room, c :: cs =>
    if c.utf8Size ≤ room then c :: fitting (room - c.utf8Size) cs else []

/-- The text itself if it has at most `limit` bytes, and otherwise what fits,
followed by three dots. -/
def cut (limit : Nat) (s : String) : String :=
  if s.utf8ByteSize ≤ limit then s
  else String.ofList (fitting limit s.toList) ++ "..."

example : cut 5 "abcdé" = "abcd..." := by decide

example : cut 6 "abcdé" = "abcdé" := by decide

end OpSchema.Text
