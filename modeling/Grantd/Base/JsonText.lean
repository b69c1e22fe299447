/-!
# JSON texts

A JSON text as its syntax tree: members in the order of the text, duplicates
included, and numbers as literals. Keys and strings are of any type. There are
two ways to read an object. One looks keys up, and the last member with that
very key counts. The other fills the fields of a struct: every member in turn
is assigned to the field its key names, exactly or else up to folding.
-/

namespace Base.JsonText

/-- A number literal. One with a fraction or an exponent is kept by the integer
that its nearest double is, if that is an integer. -/
inductive Number
  | integer (negative : Bool) (magnitude : Nat)
  | decimal (double : Option Int)
  deriving DecidableEq, Repr

inductive Doc (τ : Type u)
  | null
  | bool (b : Bool)
  | num (n : Number)
  | str (s : τ)
  | arr (items : List (Doc τ))
  | obj (members : List (τ × Doc τ))

abbrev Members (τ : Type u) := List (τ × Doc τ)

def Doc.isNull : Doc τ → Bool
  | .null => true
  | _ => false

-- ---------------------------------------------------------------------------
-- One value after another
-- ---------------------------------------------------------------------------

/-- Decodes over an old value, which the values in `skip` leave as it is. -/
def overwrite (skip : Doc τ → Bool) (decode : Doc τ → Option β) (old : β) (v : Doc τ) : Option β :=
  if skip v then some old else decode v

theorem foldlM_overwrite {skip : Doc τ → Bool} {decode : Doc τ → Option β} {vs : List (Doc τ)}
    (h : vs.foldlM (overwrite skip decode) b = some c) :
    (∀ v ∈ vs, skip v = false → ∃ x, decode v = some x) ∧
    ∀ last, last = (vs.filter (!skip ·)).getLast? →
      (last = none → c = b) ∧ ∀ v, last = some v → decode v = some c := by
  induction vs generalizing b with
  | nil =>
    cases h
    refine ⟨fun v hv => (nomatch hv), ?_⟩
    rintro _ rfl
    exact ⟨fun _ => rfl, fun v hv => (nomatch hv)⟩
  | cons w rest ih =>
    rw [List.foldlM_cons] at h
    obtain ⟨b', hb', hrest⟩ := Option.bind_eq_some_iff.mp h
    obtain ⟨hall, hlast⟩ := ih hrest
    unfold overwrite at hb'
    split at hb'
    · rename_i hnull
      cases hb'
      refine ⟨fun v hv hn => ?_, ?_⟩
      · rcases List.mem_cons.mp hv with rfl | hv
        · exact absurd (hnull.symm.trans hn) (by decide)
        · exact hall v hv hn
      · rintro _ rfl
        simpa [hnull] using hlast _ rfl
    · rename_i hnull
      refine ⟨fun v hv hn => ?_, ?_⟩
      · rcases List.mem_cons.mp hv with rfl | hv
        · exact ⟨b', hb'⟩
        · exact hall v hv hn
      · rintro _ rfl
        obtain ⟨hnone, hsome⟩ := hlast _ rfl
        simp only [List.filter_cons, hnull, Bool.not_false, if_true, List.getLast?_cons]
        refine ⟨fun h => (nomatch h), fun v hv => ?_⟩
        -- Either the value just read stays, or a later one takes its place.
        cases hr : (rest.filter (!skip ·)).getLast? with
        | none =>
          rw [hr, Option.getD_none] at hv
          cases hv
          rw [hnone hr]
          exact hb'
        | some u =>
          rw [hr, Option.getD_some] at hv
          cases hv
          exact hsome _ hr

-- ---------------------------------------------------------------------------
-- Objects
-- ---------------------------------------------------------------------------

/-- The fields of a struct, under their names, and the folding for keys that
match none of them. -/
structure Fields (ι : Type u) (τ : Type v) (κ : Type w) where
  all : List ι
  name : ι → τ
  fold : τ → κ

variable {ι : Type u} {τ : Type v} {κ : Type w} {σ : Type x} {β : Type y}
variable [DecidableEq ι] [DecidableEq τ] [DecidableEq κ]

/-- The field a key names. An exact match comes first. -/
def Fields.find (F : Fields ι τ κ) (key : τ) : Option ι :=
  match F.all.find? (F.name · = key) with
  | some i => some i
  | none => F.all.find? fun i => F.fold (F.name i) = F.fold key

def Members.own (o : Members τ) (key : τ) : Option (Doc τ) :=
  ((o.filter (·.1 = key)).getLast?).map (·.2)

/-- The values that are assigned to a field, in order. -/
def Members.under (F : Fields ι τ κ) (o : Members τ) (i : ι) : List (Doc τ) :=
  (o.filter fun m => F.find m.1 = some i).map (·.2)

def Members.kept (F : Fields ι τ κ) (skip : Doc τ → Bool) (o : Members τ) (i : ι) :
    Option (Doc τ) :=
  ((o.under F i).filter (!skip ·)).getLast?

def assign (F : Fields ι τ κ) (set : ι → Doc τ → σ → Option σ) : σ → Members τ → Option σ
  | s, [] => some s
  | s, (key, v) :: rest =>
    match F.find key with
    | none => assign F set s rest
    | some i => (set i v s).bind fun s => assign F set s rest

variable {F : Fields ι τ κ} {set : ι → Doc τ → σ → Option σ}

theorem Members.own_mem_under {o : Members τ} (hi : F.find (F.name i) = some i)
    (h : o.own (F.name i) = some v) : v ∈ o.under F i := by
  obtain ⟨⟨key, w⟩, hlast, rfl⟩ := Option.map_eq_some_iff.mp h
  obtain ⟨hmem, hkey⟩ := List.mem_filter.mp (List.mem_of_getLast? hlast)
  refine List.mem_map.mpr ⟨(key, w), List.mem_filter.mpr ⟨hmem, ?_⟩, rfl⟩
  rw [of_decide_eq_true hkey]
  exact decide_eq_true hi

theorem assign_field {π : σ → β} {read : β → Doc τ → Option β}
    (hself : ∀ v s t, set i v s = some t → read (π s) v = some (π t))
    (hother : ∀ j v s t, j ≠ i → set j v s = some t → π t = π s)
    (h : assign F set s o = some t) : (Members.under F o i).foldlM read (π s) = some (π t) := by
  induction o generalizing s with
  | nil =>
    cases h
    rfl
  | cons m rest ih =>
    obtain ⟨key, v⟩ := m
    simp only [assign] at h
    split at h
    · rename_i hfind
      simpa [Members.under, hfind] using ih h
    · rename_i j hfind
      obtain ⟨s', hset, hrest⟩ := Option.bind_eq_some_iff.mp h
      have hih := ih hrest
      by_cases hj : j = i
      · subst hj
        simp only [Members.under, hfind, List.filter_cons, decide_true, if_true, List.map_cons,
          List.foldlM_cons, hself v s s' hset, Option.bind_eq_bind, Option.bind_some]
        exact hih
      · rw [← hother j v s s' hj hset]
        simpa [Members.under, hfind, hj] using hih

/-- A scalar field ends up with the last value that counts, and every other
one had to decode too. -/
theorem assign_kept {π : σ → β} {skip : Doc τ → Bool} {decode : Doc τ → Option β}
    (hself : ∀ v s t, set i v s = some t → overwrite skip decode (π s) v = some (π t))
    (hother : ∀ j v s t, j ≠ i → set j v s = some t → π t = π s)
    (h : assign F set s o = some t) :
    (∀ v ∈ Members.under F o i, skip v = false → ∃ x, decode v = some x) ∧
    (Members.kept F skip o i).elim (some (π s)) decode = some (π t) := by
  obtain ⟨hall, hlast⟩ := foldlM_overwrite (assign_field hself hother h)
  obtain ⟨hnone, hsome⟩ := hlast _ rfl
  refine ⟨hall, ?_⟩
  cases hk : Members.kept F skip o i with
  | none => exact congrArg some (hnone hk).symm
  | some v => exact hsome v hk

end Base.JsonText
