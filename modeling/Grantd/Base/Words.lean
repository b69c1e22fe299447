/-!
# Words

A text split at its separators. `width` is how many symbols the separator in
front of a text takes, 0 where there is none. Words that hold no separator
come back from a text in which each stands behind one.
-/

namespace Base.Words

variable {α : Type u}

def flush (word : List α) : List (List α) := if word.isEmpty then [] else [word]

/-- `word` is the word so far, and `skip` symbols of a separator are left. -/
def split (width : List α → Nat) (word : List α) (skip : Nat) : List α → List (List α)
  | [] => flush word
  | c :: rest =>
    if 0 < skip then split width word (skip - 1) rest
    else if 0 < width (c :: rest) then flush word ++ split width [] (width (c :: rest) - 1) rest
    else split width (word ++ [c]) 0 rest

def words (width : List α → Nat) (s : List α) : List (List α) := split width [] 0 s

variable {width : List α → Nat}

/-- No separator begins with this symbol. -/
def Plain (width : List α → Nat) (c : α) : Prop := ∀ rest, width (c :: rest) = 0

/-- This symbol is a separator, whatever follows. -/
def Separates (width : List α → Nat) (c : α) : Prop := ∀ rest, width (c :: rest) = 1

theorem split_plain {w : List α} (h : ∀ c ∈ w, Plain width c) (word s : List α) :
    split width word 0 (w ++ s) = split width (word ++ w) 0 s := by
  induction w generalizing word with
  | nil => rw [List.nil_append, List.append_nil]
  | cons c w ih =>
    have hc : width (c :: (w ++ s)) = 0 := h c (.head _) _
    rw [List.cons_append, split, if_neg (Nat.lt_irrefl 0), hc, if_neg (Nat.lt_irrefl 0),
      ih (fun d hd => h d (.tail _ hd)), List.append_assoc, List.singleton_append]

theorem split_separates (h : Separates width c) (word s : List α) :
    split width word 0 (c :: s) = flush word ++ split width [] 0 s := by
  rw [split, if_neg (Nat.lt_irrefl 0), h s, if_pos Nat.one_pos]

theorem words_flatMap {ws : List (List α)} (hsep : Separates width c) (hend : Separates width e)
    (hws : ∀ w ∈ ws, w ≠ [] ∧ ∀ d ∈ w, Plain width d) :
    words width (ws.flatMap (c :: ·) ++ [e]) = ws := by
  have hsplit (word : List α) :
      split width word 0 (ws.flatMap (c :: ·) ++ [e]) = flush word ++ ws := by
    induction ws generalizing word with
    | nil => rw [List.flatMap_nil, List.nil_append, split_separates hend]; rfl
    | cons w ws ih =>
      obtain ⟨hne, hplain⟩ := hws w (.head _)
      have hflush : flush w = [w] := if_neg (by rwa [List.isEmpty_iff])
      rw [List.flatMap_cons, List.cons_append, List.cons_append, List.append_assoc,
        split_separates hsep, split_plain hplain, List.nil_append,
        ih (fun v hv => hws v (.tail _ hv)), hflush, List.singleton_append]
  exact hsplit []

end Base.Words
