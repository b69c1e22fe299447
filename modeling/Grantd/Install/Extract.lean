import Grantd.Base.FlatText
import Grantd.Install.Shell

/-!
# sed on compact JSON

What the patterns of install/redeem.sh find in the text of an object without
nested values: a key stands in quotes with a colon behind it, a value has a
comma or nothing behind it, and no text in quotes has a quote inside. So the
last place that matches is a member with that key.
-/

namespace Grantd.Install.Shell

open Base JsonText

-- ---------------------------------------------------------------------------
-- The last match
-- ---------------------------------------------------------------------------

theorem lastMatch_of_some (before : Bytes) (h : lastMatch p s = some a) :
    lastMatch p (before ++ s) = some a := by
  induction before with
  | nil => exact h
  | cons c before ih => simp only [List.cons_append, lastMatch, ih]

theorem lastMatch_cons (p : Bytes → Option α) :
    lastMatch p (c :: s) = (lastMatch p s).or (p (c :: s)) := by
  rw [lastMatch]
  cases lastMatch p s with
  | some a => rfl
  | none => rfl

def behind (key : String) (q : Bytes → Option α) (s : Bytes) : Option α := (afterKey key s).bind q

def PlainKey (key : String) : Prop :=
  (lit key != [] && (lit key).all fun c => Protocol.isLower c || c == 0x5F) = true

instance (key : String) : Decidable (PlainKey key) := inferInstanceAs (Decidable (_ = true))

section
variable {key : String} {q : Bytes → Option α} {x k s : Bytes}

theorem behind_of_unmatched (h : ((0x22 :: lit key ++ [0x22]).isPrefixOf s) = false) :
    behind key q s = none := by
  simp only [behind, afterKey, h, Bool.false_eq_true, if_false, Option.bind_none]

theorem lastMatch_unquoted (h : 0x22 ∉ x) :
    lastMatch (behind key q) (x ++ s) = lastMatch (behind key q) s := by
  induction x with
  | nil => rfl
  | cons c x ih =>
    simp only [List.mem_cons, not_or] at h
    have hnone : behind key q (c :: (x ++ s)) = none :=
      behind_of_unmatched (by simp [List.isPrefixOf, h.1])
    rw [List.cons_append, lastMatch_cons, hnone, ih h.2, Option.or_none]

theorem behind_closing (hkey : PlainKey key)
    (hs : ∀ c, s.head? = some c → (Protocol.isLower c || c == 0x5F) = false) :
    behind key q (0x22 :: s) = none := by
  simp only [PlainKey, Bool.and_eq_true, bne_iff_ne] at hkey
  obtain ⟨hnil, hall⟩ := hkey
  refine behind_of_unmatched ?_
  cases hk : lit key with
  | nil => exact absurd hk hnil
  | cons k ks =>
    cases s with
    | nil => rfl
    | cons c s =>
      have hlow := hs c rfl
      rw [hk, List.all_cons, Bool.and_eq_true] at hall
      have hkc : k ≠ c := by
        rintro rfl
        rw [hall.1] at hlow
        cases hlow
      simp [List.isPrefixOf, hkc]

theorem isPrefixOf_quoted (hx : 0x22 ∉ x) (hk : 0x22 ∉ k) :
    ((0x22 :: k ++ [0x22]).isPrefixOf (quoted x ++ s)) = decide (x = k) := by
  have htake {y z : Bytes} (hy : 0x22 ∉ y) : (y ++ 0x22 :: z).takeWhile (· != 0x22) = y := by
    rw [List.takeWhile_append_of_pos fun c hc => bne_iff_ne.mpr (ne_of_mem_of_not_mem hc hy)]
    simp
  rw [Bool.eq_iff_iff, List.isPrefixOf_iff_prefix, decide_eq_true_iff]
  constructor
  · rintro ⟨t, ht⟩
    simp only [quoted, List.cons_append, List.append_assoc, List.cons.injEq, true_and,
      List.nil_append] at ht
    rw [← htake hx, ← ht, htake hk]
  · rintro rfl
    exact ⟨s, by simp [quoted]⟩

theorem PlainKey.quote_notMem (hkey : PlainKey key) : 0x22 ∉ lit key := by
  simp only [PlainKey, Bool.and_eq_true] at hkey
  intro hmem
  exact absurd (List.all_eq_true.mp hkey.2 _ hmem) (by decide)

def Ends (s : Bytes) : Prop := ∀ c, s.head? = some c → c = 0x2C ∨ c = 0x7D

theorem lastMatch_value (hkey : PlainKey key) (hx : 0x22 ∉ x) (hs : Ends s) :
    lastMatch (behind key q) (quoted x ++ s) = lastMatch (behind key q) s := by
  have hclose : behind key q (0x22 :: s) = none := by
    refine behind_closing hkey fun c hc => ?_
    rcases hs c hc with rfl | rfl
    · decide
    · decide
  have hopen : behind key q (quoted x ++ s) = none := by
    by_cases hxk : x = lit key
    · subst hxk
      have hcolon : ∀ rest, s.dropWhile isSpace ≠ 0x3A :: rest := by
        intro rest hrest
        cases s with
        | nil => cases hrest
        | cons c s =>
          rcases hs c rfl with rfl | rfl
          · exact absurd (List.cons.inj hrest).1 (by decide)
          · exact absurd (List.cons.inj hrest).1 (by decide)
      have hdrop : (quoted (lit key) ++ s).drop (0x22 :: lit key ++ [0x22]).length = s := by
        rw [show (0x22 :: lit key ++ [0x22]) = quoted (lit key) from rfl, List.drop_left]
      simp only [behind, afterKey, isPrefixOf_quoted hx hx, decide_true, if_true, hdrop]
      rfl
    · exact behind_of_unmatched
        (by rw [isPrefixOf_quoted hx hkey.quote_notMem, decide_eq_false hxk])
  rw [quoted, List.cons_append, List.cons_append, lastMatch_cons, List.append_assoc,
    List.singleton_append, lastMatch_unquoted hx, lastMatch_cons, hclose, Option.or_none]
  have h : behind key q (0x22 :: (x ++ 0x22 :: s)) = none := by simpa [quoted] using hopen
  rw [h, Option.or_none]

def Finds (q : Bytes → Option α) (value : Scalar → Option α) : Prop :=
  ∀ v s, v.isPlain = true → Ends s → q (v.text ++ s) = value v

theorem quote_notMem_of_plain (h : x.all isPlain = true) : 0x22 ∉ x :=
  fun hmem => absurd (List.all_eq_true.mp h _ hmem) (by decide)

theorem lastMatch_scalar {v : Scalar} (hkey : PlainKey key) (hv : v.isPlain = true) (hs : Ends s) :
    lastMatch (behind key q) (v.text ++ s) = lastMatch (behind key q) s := by
  cases v with
  | str x => exact lastMatch_value hkey (quote_notMem_of_plain hv) hs
  | int z =>
    refine lastMatch_unquoted fun hmem => ?_
    rcases List.mem_append.mp hmem with hmem | hmem
    · split at hmem
      · exact absurd (List.mem_singleton.mp hmem) (by decide)
      · cases hmem
    · exact absurd (Decimal.isDigit_of_mem_text hmem) (by decide)

theorem head_int (z : Int) (s : Bytes) : ∃ c rest, Scalar.text (.int z) ++ s = c :: rest ∧
    (c = 0x2D ∨ Decimal.isDigit c = true) := by
  simp only [Scalar.text]
  split
  · exact ⟨0x2D, _, rfl, .inl rfl⟩
  · cases hd : Decimal.text z.natAbs with
    | nil => exact absurd hd (Decimal.text_ne_nil _)
    | cons c rest =>
      exact ⟨c, rest ++ s, rfl, .inr (Decimal.isDigit_of_mem_text (hd ▸ List.mem_cons_self))⟩

theorem dropWhile_scalar (v : Scalar) (s : Bytes) :
    (v.text ++ s).dropWhile isSpace = v.text ++ s := by
  cases v with
  | str x => rfl
  | int z =>
    obtain ⟨c, rest, hc, hhead⟩ := head_int z s
    have hspace : isSpace c = false := by
      rcases hhead with rfl | hdigit
      · rfl
      · rw [Bool.eq_false_iff]
        intro hspace
        simp only [Decimal.isDigit, Bool.and_eq_true, decide_eq_true_eq,
          UInt8.le_iff_toNat_le] at hdigit
        simp only [isSpace, Bool.or_eq_true, beq_iff_eq, Bool.and_eq_true, decide_eq_true_eq,
          UInt8.le_iff_toNat_le] at hspace
        rcases hspace with rfl | ⟨-, hle⟩
        · exact absurd hdigit.1 (by decide)
        · exact absurd (Nat.le_trans hdigit.1 hle) (by decide)
    rw [hc, List.dropWhile_cons, hspace]
    rfl

theorem lastMatch_member {m : Text × Scalar} {value : Scalar → Option α} (hkey : PlainKey key)
    (hq : Finds q value) (hm : m.1.all isPlain = true) (hv : m.2.isPlain = true) (hs : Ends s) :
    lastMatch (behind key q) (memberText m ++ s) =
      (lastMatch (behind key q) s).or (if m.1 = lit key then value m.2 else none) := by
  have hname := quote_notMem_of_plain hm
  have hhere : behind key q (quoted m.1 ++ 0x3A :: (m.2.text ++ s)) =
      if m.1 = lit key then value m.2 else none := by
    split
    · rename_i hk
      have hdrop : (quoted (lit key) ++ 0x3A :: (m.2.text ++ s)).drop
          (0x22 :: lit key ++ [0x22]).length = 0x3A :: (m.2.text ++ s) := by
        rw [show (0x22 :: lit key ++ [0x22]) = quoted (lit key) from rfl, List.drop_left]
      have hcolon : isSpace 0x3A = false := by decide
      rw [hk] at hname ⊢
      simp only [behind, afterKey, isPrefixOf_quoted hname hname, decide_true, if_true, hdrop,
        List.dropWhile_cons, hcolon, Bool.false_eq_true, if_false, dropWhile_scalar,
          Option.bind_some]
      exact hq m.2 s hv hs
    · rename_i hk
      exact behind_of_unmatched
        (by rw [isPrefixOf_quoted hname hkey.quote_notMem, decide_eq_false hk])
  have hclose : behind key q (0x22 :: 0x3A :: (m.2.text ++ s)) = none :=
    behind_closing hkey fun c hc => by
      cases hc
      decide
  have htext : memberText m ++ s = 0x22 :: (m.1 ++ 0x22 :: ([0x3A] ++ (m.2.text ++ s))) := by
    simp [memberText, quoted]
  rw [htext, lastMatch_cons, lastMatch_unquoted hname, lastMatch_cons,
    lastMatch_unquoted (by decide), lastMatch_scalar hkey hv hs, List.singleton_append, hclose,
    Option.or_none, ← hhere]
  simp [quoted]

end

-- ---------------------------------------------------------------------------
-- The fields of a registration
-- ---------------------------------------------------------------------------

section
variable {key : String} {q : Bytes → Option α} {value : Scalar → Option α} {o : Flat}

theorem lastMatch_members (hkey : PlainKey key) (hq : Finds q value) (ho : o.isPlain = true)
    (hclose : Ends close) : lastMatch (behind key q) (o.membersText close) =
      o.foldr (fun m found => found.or (if m.1 = lit key then value m.2 else none))
        (lastMatch (behind key q) close) := by
  fun_induction Flat.membersText close o with
  | case1 => rfl
  | case2 m =>
    simp only [Flat.isPlain, List.all_cons, Bool.and_eq_true] at ho
    rw [lastMatch_member hkey hq ho.1.1 ho.1.2 hclose]
    rfl
  | case3 m rest _ ih =>
    simp only [Flat.isPlain, List.all_cons, Bool.and_eq_true] at ho
    have hends : Ends (0x2C :: Flat.membersText close rest) := fun c hc => .inl (by cases hc; rfl)
    have hcomma : lastMatch (behind key q) ([0x2C] ++ Flat.membersText close rest) =
        lastMatch (behind key q) (Flat.membersText close rest) := lastMatch_unquoted (by decide)
    rw [lastMatch_member hkey hq ho.1.1 ho.1.2 hends, ← List.singleton_append, hcomma,
      ih ho.2, List.foldr_cons]

theorem notMem_membersText {c : UInt8} (hc : Decimal.isDigit c = false)
    (hpunct : 0x22 ≠ c ∧ 0x3A ≠ c ∧ 0x2C ≠ c ∧ 0x2D ≠ c)
    (ho : ∀ m ∈ o, c ∉ m.1 ∧ ∀ s, m.2 = .str s → c ∉ s) : c ∉ o.membersText [] := by
  have h : ∀ x ∈ o.membersText [], x ≠ c := by
    refine Flat.forall_mem_membersText hpunct (fun x hx he => ?_) (by simp) fun m hm => ?_
    · rw [he, hc] at hx
      cases hx
    · obtain ⟨hname, hstr⟩ := ho m hm
      exact ⟨fun x hx he => hname (he ▸ hx), fun s hs x hx he => hstr s hs (he ▸ hx)⟩
  exact fun hmem => h c hmem rfl

theorem membersText_eq (close : Text) : o.membersText close = o.membersText [] ++ close := by
  fun_induction Flat.membersText close o with
  | case1 => rfl
  | case2 m => simp [Flat.membersText]
  | case3 m rest hne ih => rw [ih, Flat.membersText, List.append_assoc, List.cons_append]; exact hne

end

theorem takeWhile_until {x : Bytes} {c : UInt8} (h : c ∉ x) :
    (x ++ c :: s).takeWhile (· ≠ c) = x := by
  have hpos : ∀ y ∈ x, decide (y ≠ c) = true := fun y hy =>
    decide_eq_true (ne_of_mem_of_not_mem hy h)
  rw [List.takeWhile_append_of_pos hpos]
  simp

theorem between_eq {x : Bytes} {closing : UInt8} (h : closing ∉ x) :
    between opening closing (opening :: (x ++ closing :: s)) = some x := by
  rw [between, if_pos ⟨rfl, by simp⟩, takeWhile_until h]

theorem between_of_ne {closing : UInt8} (h : c ≠ opening) :
    between opening closing (c :: s) = none := by
  rw [between, if_neg fun hc => h hc.1]

def strValue : Scalar → Option Bytes
  | .str s => some s
  | .int _ => none

def numValue : Scalar → Option Bytes
  | .int (.ofNat n) => some (Decimal.text n)
  | _ => none

theorem finds_str : Finds (between 0x22 0x22) strValue := by
  intro v s hv hs
  cases v with
  | str x =>
    rw [Scalar.text, quoted, List.cons_append, List.cons_append, List.append_assoc,
      List.singleton_append]
    exact between_eq (quote_notMem_of_plain hv)
  | int z =>
    obtain ⟨c, rest, hc, hhead⟩ := head_int z s
    rw [hc, between_of_ne]
    · rfl
    · rintro rfl
      exact absurd hhead (by decide)

theorem finds_object : Finds (between 0x7B 0x7D) fun _ => none := by
  intro v s hv hs
  cases v with
  | str x => exact between_of_ne (by decide)
  | int z =>
    obtain ⟨c, rest, hc, hhead⟩ := head_int z s
    rw [hc, between_of_ne]
    rintro rfl
    exact absurd hhead (by decide)

theorem finds_num : Finds digits numValue := by
  intro v s hv hs
  cases v with
  | str x => rfl
  | int z =>
    cases z with
    | negSucc n =>
      have htext : Scalar.text (.int (.negSucc n)) = 0x2D :: Decimal.text (n + 1) := by
        simp [Scalar.text]
      rw [htext]
      rfl
    | ofNat n =>
      have hdigit : ∀ c ∈ Decimal.text n, Decimal.isDigit c = true := fun c hc =>
        Decimal.isDigit_of_mem_text hc
      have hstop : s.takeWhile Decimal.isDigit = [] := by
        cases s with
        | nil => rfl
        | cons c s =>
          rcases hs c rfl with rfl | rfl
          · rfl
          · rfl
      have htext : Scalar.text (.int (.ofNat n)) = Decimal.text n := by simp [Scalar.text]
      rw [htext, digits, List.takeWhile_append_of_pos hdigit, hstop, List.append_nil]
      split
      · rename_i hnil
        exact absurd hnil (Decimal.text_ne_nil _)
      · rfl

-- ---------------------------------------------------------------------------
-- A record
-- ---------------------------------------------------------------------------

def recordEnd (signature : Bytes) : Bytes :=
  0x7D :: 0x2C :: (memberText (lit "signature", .str signature) ++ [0x7D])

/-- A record whose last members are a registration and its signature. -/
def recordText (before : Bytes) (registration : Flat) (signature : Bytes) : Bytes :=
  before ++ (quoted (lit "registration") ++ 0x3A :: 0x7B ::
    registration.membersText (recordEnd signature))

theorem lines_eq {text : Bytes} (h : 0x0A ∉ text) : lines text = [text] := by
  have hsplit : ([0x0A].intercalate [text]).splitOn 0x0A = [text] :=
    List.splitOn_intercalate 0x0A (by simpa using h) (by simp)
  simpa [lines] using hsplit

/-- No key or string closes an object. -/
def Flat.Inner (o : Flat) : Prop := ∀ m ∈ o, 0x7D ∉ m.1 ∧ ∀ s, m.2 = .str s → 0x7D ∉ s

section
variable {o : Flat} {before signature : Bytes}

theorem newline_notMem_members (ho : o.isPlain = true) : 0x0A ∉ o.membersText [] := by
  refine notMem_membersText (by decide) (by decide) fun m hm => ?_
  obtain ⟨hname, hstr⟩ := Flat.isPlain_of_mem ho m hm
  exact ⟨fun hmem => absurd (hname _ hmem) (by decide),
    fun s hs hmem => absurd (hstr s hs _ hmem) (by decide)⟩

theorem jsonStr_members {key : String} (hkey : PlainKey key) (ho : o.isPlain = true) :
    jsonStr (o.membersText []) key = (o.foldr (fun m found =>
      found.or (if m.1 = lit key then strValue m.2 else none)) none).getD [] := by
  have hends : Ends [] := fun c hc => by cases hc
  have h := lastMatch_members hkey finds_str ho hends
  rw [show lastMatch (behind key (between 0x22 0x22)) [] = none from behind_of_unmatched rfl] at h
  rw [jsonStr, lines_eq (newline_notMem_members ho), List.findSome?_singleton]
  exact congrArg (Option.getD · []) h

theorem jsonNum_members {key : String} (hkey : PlainKey key) (ho : o.isPlain = true) :
    jsonNum (o.membersText []) key = (o.foldr (fun m found =>
      found.or (if m.1 = lit key then numValue m.2 else none)) none).getD [] := by
  have hends : Ends [] := fun c hc => by cases hc
  have h := lastMatch_members hkey finds_num ho hends
  rw [show lastMatch (behind key digits) [] = none from behind_of_unmatched rfl] at h
  rw [jsonNum, lines_eq (newline_notMem_members ho), List.findSome?_singleton]
  exact congrArg (Option.getD · []) h

theorem newline_notMem_record (ho : o.isPlain = true) (hsig : signature.all isPlain = true)
    (hbefore : 0x0A ∉ before) : 0x0A ∉ recordText before o signature := by
  have hs : 0x0A ∉ signature := fun hmem => absurd (List.all_eq_true.mp hsig _ hmem) (by decide)
  have hkeys : (0x0A : UInt8) ∉ lit "registration" ∧ (0x0A : UInt8) ∉ lit "signature" := by decide
  have hmembers := newline_notMem_members ho
  simp only [recordText, recordEnd, membersText_eq (o := o) (_ :: _), memberText, quoted,
    Scalar.text, List.mem_append, List.mem_cons, List.not_mem_nil, not_or]
  simp [hbefore, hkeys, hmembers, hs]

theorem lastMatch_recordEnd {key : String} {q : Bytes → Option α} {value : Scalar → Option α}
    (hkey : PlainKey key) (hq : Finds q value) (hsig : signature.all isPlain = true) :
    lastMatch (behind key q) (recordEnd signature) =
      if lit "signature" = lit key then value (.str signature) else none := by
  have hend : lastMatch (behind key q) [0x7D] = none :=
    (lastMatch_unquoted (x := [0x7D]) (s := []) (by decide)).trans (behind_of_unmatched rfl)
  have hskip : lastMatch (behind key q)
      ([0x7D, 0x2C] ++ (memberText (lit "signature", .str signature) ++ [0x7D])) =
        lastMatch (behind key q) (memberText (lit "signature", .str signature) ++ [0x7D]) :=
    lastMatch_unquoted (by decide)
  rw [recordEnd]
  refine hskip.trans ?_
  rw [lastMatch_member (m := (lit "signature", .str signature)) hkey hq
    (by decide : (lit "signature").all isPlain = true) hsig (fun c hc => .inr (by cases hc; rfl)),
      hend,
    Option.none_or]

theorem registrationText_record (ho : o.isPlain = true) (hinner : Flat.Inner o)
    (hsig : signature.all isPlain = true) (hbefore : 0x0A ∉ before) :
    registrationText (recordText before o signature) = o.membersText [] := by
  have hkey : PlainKey "registration" := by decide
  have hconst (o : Flat) : o.foldr (fun m found => found.or
      (if m.1 = lit "registration" then none else none)) (none : Option Bytes) = none := by simp
  have hnone : lastMatch (behind "registration" (between 0x7B 0x7D))
      (o.membersText (recordEnd signature)) = none := by
    rw [lastMatch_members hkey finds_object ho fun c hc => .inr (by cases hc; rfl),
      lastMatch_recordEnd hkey finds_object hsig, if_neg (by decide), hconst]
  have hhere : behind "registration" (between 0x7B 0x7D)
      (quoted (lit "registration") ++ 0x3A :: 0x7B ::
      o.membersText (recordEnd signature)) = some (o.membersText []) := by
    have hbrace : 0x7D ∉ o.membersText [] := notMem_membersText (by decide) (by decide) hinner
    rw [membersText_eq, recordEnd]
    exact between_eq hbrace
  have hmatch : lastMatch (behind "registration" (between 0x7B 0x7D))
    (recordText before o signature) =
      some (o.membersText []) := by
    refine lastMatch_of_some before ?_
    have hname : 0x22 ∉ lit "registration" := hkey.quote_notMem
    have htail : lastMatch (behind "registration" (between 0x7B 0x7D))
        (lit "registration" ++ 0x22 :: 0x3A :: 0x7B :: o.membersText (recordEnd signature)) =
          none := by
      rw [lastMatch_unquoted hname, lastMatch_cons,
        behind_closing hkey fun c hc => by cases hc; decide, Option.or_none]
      exact (lastMatch_unquoted (x := [0x3A, 0x7B]) (by decide)).trans hnone
    have htext : quoted (lit "registration") ++
          0x3A :: 0x7B :: o.membersText (recordEnd signature) =
        0x22 :: (lit "registration" ++
          0x22 :: 0x3A :: 0x7B :: o.membersText (recordEnd signature)) := by
      simp [quoted]
    rw [htext, lastMatch_cons, htail, Option.none_or, ← htext, hhere]
  rw [registrationText, lines_eq (newline_notMem_record ho hsig hbefore)]
  have hmap := List.filterMap_cons_some (l := []) hmatch
  exact (congrArg ([0x0A].intercalate ·) hmap).trans (by simp)

theorem jsonStr_signature (ho : o.isPlain = true) (hsig : signature.all isPlain = true)
    (hbefore : 0x0A ∉ before) :
    jsonStr (recordText before o signature) "signature" = signature := by
  have hkey : PlainKey "signature" := by decide
  have hmatch : lastMatch (behind "signature" (between 0x22 0x22)) (recordText before o signature) =
      some signature := by
    have hend := lastMatch_recordEnd hkey finds_str hsig
    rw [if_pos rfl] at hend
    have h := lastMatch_of_some (before ++ (quoted (lit "registration") ++ 0x3A :: 0x7B ::
      o.membersText [])) hend
    rw [recordText, membersText_eq (recordEnd signature)]
    simpa [strValue] using h
  rw [jsonStr, lines_eq (newline_notMem_record ho hsig hbefore), List.findSome?_singleton]
  exact congrArg (Option.getD · []) hmatch

end

end Grantd.Install.Shell
