/-!
# Cutting text at bytes

A text may be cut at an offset that counts the bytes of its UTF-8 form. An
offset inside a character cuts nothing; the offset after a front part cuts the
text right behind that part.
-/

namespace LoggingFacade
namespace Text

/-- The bytes of the UTF-8 form. -/
def byteCount : List Char → Nat
  | [] => 0
  | c :: rest => c.utf8Size + byteCount rest

@[simp] theorem byteCount_nil : byteCount [] = 0 := rfl

@[simp] theorem byteCount_cons (c : Char) (rest : List Char) :
    byteCount (c :: rest) = c.utf8Size + byteCount rest := rfl

@[simp] theorem byteCount_append (a b : List Char) :
    byteCount (a ++ b) = byteCount a + byteCount b := by
  induction a with
  | nil => simp
  | cons c a ih => simp [ih, Nat.add_assoc]

/-- The characters before an offset and those after it. -/
def cutAt? : Nat → List Char → Option (List Char × List Char)
  | 0, cs => some ([], cs)
  | _ + 1, [] => none
  | n + 1, c :: rest =>
    if n + 1 < c.utf8Size then none
    else (cutAt? (n + 1 - c.utf8Size) rest).map fun (front, back) => (c :: front, back)

/-- The characters between two offsets. -/
def between? (start stop : Nat) (cs : List Char) : Option (List Char) := do
  let (front, _) ← cutAt? stop cs
  let (_, part) ← cutAt? start front
  return part

/-- The characters from an offset on. -/
def from? (start : Nat) (cs : List Char) : Option (List Char) := (cutAt? start cs).map (·.2)

@[simp] theorem cutAt?_append (front back : List Char) :
    cutAt? (byteCount front) (front ++ back) = some (front, back) := by
  induction front with
  | nil => simp [cutAt?]
  | cons c front ih =>
    obtain ⟨n, hn⟩ : ∃ n, byteCount (c :: front) = n + 1 :=
      ⟨byteCount (c :: front) - 1, by
        have := c.utf8Size_pos
        simp only [byteCount_cons]
        omega⟩
    have hsize : ¬n + 1 < c.utf8Size := by
      simp only [byteCount_cons] at hn
      omega
    have hrest : n + 1 - c.utf8Size = byteCount front := by
      simp only [byteCount_cons] at hn
      omega
    rw [hn, List.cons_append, cutAt?, if_neg hsize, hrest, ih]
    rfl

theorem cutAt?_eq_some {n : Nat} {cs front back : List Char}
    (h : cutAt? n cs = some (front, back)) : front ++ back = cs ∧ byteCount front = n := by
  fun_induction cutAt? n cs generalizing front back with
  | case1 cs =>
    obtain ⟨rfl, rfl⟩ := Prod.mk.inj (Option.some.inj h)
    exact ⟨rfl, rfl⟩
  | case2 => simp at h
  | case3 => simp at h
  | case4 n c rest hn ih =>
    obtain ⟨⟨a, b⟩, hab, he⟩ := Option.map_eq_some_iff.1 h
    obtain ⟨rfl, rfl⟩ := Prod.mk.inj he
    obtain ⟨rfl, hcount⟩ := ih hab
    refine ⟨rfl, ?_⟩
    simp only [byteCount_cons, hcount]
    omega

theorem between?_append (front part back : List Char) :
    between? (byteCount front) (byteCount (front ++ part)) (front ++ part ++ back) =
      some part := by
  rw [between?, cutAt?_append]
  change (do let (_, part) ← cutAt? (byteCount front) (front ++ part); return part) = some part
  rw [cutAt?_append]
  rfl

theorem from?_append (front back : List Char) :
    from? (byteCount front) (front ++ back) = some back := by
  simp [from?]

end Text
end LoggingFacade
