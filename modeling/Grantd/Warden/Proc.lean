import Grantd.Base.Decimal
import Grantd.Base.Url
import Grantd.Base.Words
import Grantd.Protocol.SshKey
import Grantd.Warden.Model
import Mathlib.Algebra.Group.Int.Defs

/-!
# Reading a process

`ReadProc` and `readCgroup` of go/warden/proc.go on the files of /proc. A
visitor chooses the name of its process, which stands in the middle of the
stat line, in parentheses. `ReadProc` reads behind the last parenthesis of the
file, where the kernel writes a letter and numbers, so that no name makes it
see another parent or another start time.
-/

namespace Grantd.Warden

open Base

-- ---------------------------------------------------------------------------
-- Go's strings and strconv
-- ---------------------------------------------------------------------------

/-- How long the white space in front of a text is, as one rune. -/
def spaceWidth (s : GoString) : Nat :=
  ((Protocol.spaces.find? (·.isPrefixOf s)).map List.length).getD 0

def fields (s : GoString) : List GoString := Words.words spaceWidth s

def spaceWidthRev (s : GoString) : Nat :=
  ((Protocol.spaces.find? (·.reverse.isPrefixOf s)).map List.length).getD 0

/-- `skip` bytes of a rune are left. -/
def trimFront (width : GoString → Nat) : Nat → GoString → GoString
  | _, [] => []
  | skip + 1, _ :: rest => trimFront width skip rest
  | 0, c :: rest =>
    match width (c :: rest) with
    | 0 => c :: rest
    | k + 1 => trimFront width k rest

def trimSpace (s : GoString) : GoString :=
  (trimFront spaceWidthRev 0 (trimFront spaceWidth 0 s).reverse).reverse

inductive NumError
  | invalid
  | range
  deriving DecidableEq, Repr

def natural (s : GoString) : Option Nat :=
  if s ≠ [] ∧ s.all Decimal.isDigit = true then some (Decimal.value s) else none

def parseUint (s : GoString) : UInt64 × Option NumError :=
  match natural s with
  | none => (0, some .invalid)
  | some n => if n < 2 ^ 64 then (.ofNat n, none) else (.ofNat (2 ^ 64 - 1), some .range)

def sign : GoString → Bool × GoString
  | 0x2D :: digits => (true, digits)
  | 0x2B :: digits => (false, digits)
  | digits => (false, digits)

def atoi (s : GoString) : Int × Option NumError :=
  match natural (sign s).2 with
  | none => (0, some .invalid)
  | some n =>
    if (sign s).1 then if n ≤ 2 ^ 63 then (-n, none) else (-2 ^ 63, some .range)
    else if n < 2 ^ 63 then (n, none) else (2 ^ 63 - 1, some .range)

/-- `bufio.MaxScanTokenSize`. A line has to leave room for its end. -/
def maxScanTokenSize : Nat := 64 * 1024

def dropCR (line : GoString) : GoString :=
  if line.getLast? = some 0x0D then line.dropLast else line

/-- The lines a `bufio.Scanner` gives, up to one that is too long. -/
def scanLines (s : Bytes) : List GoString :=
  let lines := s.splitOn 0x0A
  let lines := if lines.getLast? = some [] then lines.dropLast else lines
  (lines.takeWhile (·.length < maxScanTokenSize)).map dropCR

def base (path : GoString) : GoString :=
  if path = [] then lit "."
  else
    let path := (path.reverse.dropWhile (· == 0x2F)).reverse
    let path := Url.afterLast 0x2F path
    if path = [] then lit "/" else path

def trimSuffix (suffix s : GoString) : GoString :=
  if suffix.isSuffixOf s then s.take (s.length - suffix.length) else s

-- ---------------------------------------------------------------------------
-- ReadProc
-- ---------------------------------------------------------------------------

inductive FileError
  | notExist
  | other (err : GoString)
  deriving DecidableEq, Repr

structure ProcFiles where
  stat : Except FileError Bytes
  status : Except GoString Bytes
  exe : Option GoString
  cgroup : Option Bytes

inductive ProcError
  | noProcess
  | stat (err : GoString)
  | malformed
  | short
  | ppid (err : NumError)
  | startTime (err : NumError)
  | status (err : GoString)
  | noUid
  deriving DecidableEq, Repr

def readUID (status : Bytes) : Int :=
  (scanLines status).foldl (fun uid line =>
    if (lit "Uid:").isPrefixOf line then
      match fields (line.drop 4) with
      | [] => uid
      | part :: _ => (atoi part).1
    else uid) (-1)

/-- The path, or the empty one with an error that nobody looks at. -/
def readCgroup (file : Option Bytes) : GoString :=
  match file with
  | none => []
  | some b =>
    match (b.splitOn 0x0A).find? ((lit "0::").isPrefixOf ·) with
    | none => []
    | some line => trimSpace (line.drop 3)

/-- The second half of `ReadProc`, behind the stat file. -/
def readStatus (p : Proc) (files : ProcFiles) : Proc × Option ProcError :=
  match files.status with
  | .error err => (p, some (.status err))
  | .ok status =>
    let p := { p with uid := readUID status }
    if p.uid < 0 then (p, some .noUid)
    else
      let exe := match files.exe with
        | none => []
        | some exe => base (trimSuffix (lit " (deleted)") exe)
      ({ p with exe, cgroup := readCgroup files.cgroup }, none)

/-- `ReadProc` returns what it has read so far beside an error. -/
def readProc (pid : Int) (files : ProcFiles) : Proc × Option ProcError :=
  let p : Proc := ⟨pid, 0, 0, 0, [], []⟩
  match files.stat with
  | .error .notExist => (p, some .noProcess)
  | .error (.other err) => (p, some (.stat err))
  | .ok stat =>
    if !stat.contains 0x29 then (p, some .malformed)
    else
      let fs := fields (Url.afterLast 0x29 stat)
      if fs.length < 20 then (p, some .short)
      else
        let ppid := atoi (fs.getD 1 [])
        let p := { p with ppid := ppid.1 }
        match ppid.2 with
        | some err => (p, some (.ppid err))
        | none =>
          let start := parseUint (fs.getD 19 [])
          let p := { p with startTime := start.1 }
          match start.2 with
          | some err => (p, some (.startTime err))
          | none => readStatus p files

-- ---------------------------------------------------------------------------
-- The stat line
-- ---------------------------------------------------------------------------

def isLetter (c : UInt8) : Bool := (0x41 ≤ c && c ≤ 0x5A) || (0x61 ≤ c && c ≤ 0x7A)

/-- What the kernel writes a stat line from. `comm` is up to the visitor. The
start time is the twentieth field behind the name, and more may follow. -/
structure StatLine where
  pid : Int
  comm : Bytes
  state : UInt8
  ppid : Int64
  between : List Int
  startTime : UInt64
  rest : List Int
  letter : isLetter state = true
  seventeen : between.length = 17

namespace StatLine

def fields (s : StatLine) : List GoString :=
  [s.state] :: Decimal.intText s.ppid.toInt :: s.between.map Decimal.intText ++
    Decimal.text s.startTime.toNat :: s.rest.map Decimal.intText

def tail (s : StatLine) : Bytes := s.fields.flatMap (0x20 :: ·) ++ [0x0A]

def text (s : StatLine) : Bytes :=
  Decimal.intText s.pid ++ lit " (" ++ s.comm ++ lit ")" ++ s.tail

end StatLine

-- ---------------------------------------------------------------------------
-- Numbers come back
-- ---------------------------------------------------------------------------

theorem natural_text (n : Nat) : natural (Decimal.text n) = some n := by
  have hdigits : (Decimal.text n).all Decimal.isDigit = true :=
    List.all_eq_true.mpr fun c hc => Decimal.isDigit_of_mem_text hc
  rw [natural, if_pos ⟨Decimal.text_ne_nil n, hdigits⟩, Decimal.value_text]

theorem parseUint_text (n : UInt64) : parseUint (Decimal.text n.toNat) = (n, none) := by
  simp only [parseUint, natural_text, if_pos n.toNat_lt, UInt64.ofNat_toNat]

theorem sign_text (n : Nat) : sign (Decimal.text n) = (false, Decimal.text n) := by
  have hdigits := fun c => Decimal.isDigit_of_mem_text (c := c) (n := n)
  cases htext : Decimal.text n with
  | nil => rfl
  | cons c rest =>
    have hc : Decimal.isDigit c = true := hdigits c (htext ▸ .head _)
    unfold sign
    split
    · rename_i h
      cases h
      exact absurd hc (by decide)
    · rename_i h
      cases h
      exact absurd hc (by decide)
    · rfl

theorem atoi_intText (i : Int64) : atoi (Decimal.intText i.toInt) = (i.toInt, none) := by
  have hlow := i.le_toInt
  have hhigh := i.toInt_lt
  generalize i.toInt = z at hlow hhigh
  cases z with
  | ofNat n =>
    have hn : n < 2 ^ 63 := Int.ofNat_lt.mp hhigh
    simp only [Decimal.intText, atoi, sign_text, natural_text, Bool.false_eq_true, if_false,
      if_pos hn]
    rfl
  | negSucc n =>
    have hn : n + 1 ≤ 2 ^ 63 := by omega
    simp only [Decimal.intText, atoi, sign, natural_text, if_true, if_pos hn]
    rfl

-- ---------------------------------------------------------------------------
-- The fields come back
-- ---------------------------------------------------------------------------

def isFieldByte (c : UInt8) : Bool := isLetter c || c == 0x2D || Decimal.isDigit c

theorem plain_of_isFieldByte (h : isFieldByte c = true) : Words.Plain spaceWidth c := by
  have hheads := Code.forall_byte (p := fun c => !isFieldByte c ||
    Protocol.spaces.all fun sp => sp.head? != some c && sp != []) (by decide +kernel) c
  rw [h, Bool.not_true, Bool.false_or, List.all_eq_true] at hheads
  intro rest
  have hnone : Protocol.spaces.find? (·.isPrefixOf (c :: rest)) = none := by
    refine List.find?_eq_none.mpr fun sp hsp => ?_
    have hhead := hheads sp hsp
    cases sp with
    | nil => simp at hhead
    | cons d sp =>
      simp only [List.head?_cons, bne_iff_ne, ne_eq, Option.some.injEq, Bool.and_eq_true] at hhead
      simp [List.isPrefixOf, hhead.1]
  rw [spaceWidth, hnone]
  rfl

namespace StatLine

theorem mem_fields {s : StatLine} (h : w ∈ s.fields) :
    w ≠ [] ∧ ∀ c ∈ w, isFieldByte c = true := by
  have hint (i : Int) : Decimal.intText i ≠ [] ∧
      ∀ c ∈ Decimal.intText i, isFieldByte c = true := by
    refine ⟨Decimal.intText_ne_nil i, fun c hc => ?_⟩
    rcases Decimal.mem_intText hc with rfl | hdigit
    · rfl
    · simp [isFieldByte, hdigit]
  simp only [fields, List.cons_append, List.mem_cons, List.mem_append, List.mem_map] at h
  rcases h with rfl | rfl | ⟨i, -, rfl⟩ | rfl | ⟨i, -, rfl⟩
  · refine ⟨List.cons_ne_nil _ _, fun c hc => ?_⟩
    rw [List.mem_singleton.mp hc]
    simp [isFieldByte, s.letter]
  · exact hint _
  · exact hint i
  · exact hint (Int.ofNat s.startTime.toNat)
  · exact hint i

theorem fields_tail (s : StatLine) : Warden.fields s.tail = s.fields := by
  refine Words.words_flatMap (fun _ => rfl) (fun _ => rfl) fun w hw => ?_
  obtain ⟨hne, hbytes⟩ := mem_fields hw
  exact ⟨hne, fun c hc => plain_of_isFieldByte (hbytes c hc)⟩

theorem paren_notMem_tail (s : StatLine) : (0x29 : UInt8) ∉ s.tail := by
  intro h
  rcases List.mem_append.mp h with h | h
  · obtain ⟨w, hw, hc⟩ := List.mem_flatMap.mp h
    rcases List.mem_cons.mp hc with hspace | hc
    · exact absurd hspace (by decide)
    · exact absurd ((mem_fields hw).2 _ hc) (by decide)
  · exact absurd (List.mem_singleton.mp h) (by decide)

theorem afterLast_text (s : StatLine) : Url.afterLast 0x29 s.text = s.tail := by
  have hsplit : s.text.reverse = s.tail.reverse ++
      0x29 :: (Decimal.intText s.pid ++ lit " (" ++ s.comm).reverse := by
    simp [text, show lit ")" = [0x29] from rfl]
  rw [Url.afterLast, hsplit, Url.takeWhile_ne (mt List.mem_reverse.mp s.paren_notMem_tail),
    List.reverse_reverse]

theorem contains_text (s : StatLine) : s.text.contains 0x29 = true := by
  simp [text, show lit ")" = [0x29] from rfl]

theorem getD_fields (s : StatLine) :
    s.fields.getD 1 [] = Decimal.intText s.ppid.toInt ∧
      s.fields.getD 19 [] = Decimal.text s.startTime.toNat ∧ ¬ s.fields.length < 20 := by
  have hlen : (s.between.map Decimal.intText).length = 17 := by rw [List.length_map, s.seventeen]
  refine ⟨rfl, ?_, ?_⟩
  · rw [fields, List.cons_append, List.cons_append, List.getD_cons_succ, List.getD_cons_succ,
      List.getD_append_right _ _ _ _ (by omega), hlen]
    rfl
  · simp only [fields, List.cons_append, List.length_cons, List.length_append, hlen]
    omega

end StatLine

theorem readProc_text (s : StatLine) (pid : Int) {files : ProcFiles}
    (h : files.stat = .ok s.text) :
    readProc pid files = readStatus ⟨pid, s.ppid.toInt, 0, s.startTime, [], []⟩ files := by
  obtain ⟨hppid, hstart, hlen⟩ := s.getD_fields
  simp only [readProc, h, s.contains_text, s.afterLast_text, s.fields_tail, hppid, hstart,
    if_neg hlen, atoi_intText, parseUint_text, Bool.not_true, Bool.false_eq_true, if_false]

theorem readStatus_keeps (p : Proc) (files : ProcFiles) :
    (readStatus p files).1.ppid = p.ppid ∧ (readStatus p files).1.startTime = p.startTime ∧
      ((readStatus p files).2 = none ↔ ∃ status, files.status = .ok status ∧
        0 ≤ readUID status) := by
  unfold readStatus
  cases hstatus : files.status with
  | error err => simp
  | ok status =>
    by_cases huid : readUID status < 0
    · simp [huid]
    · simp [huid, Int.not_lt.mp huid]

/-- Whatever a process is called, `ReadProc` gives its parent and its start
time, and fails only for the status file. -/
theorem comm_cannot_forge (s : StatLine) (pid : Int) (files : ProcFiles)
    (h : files.stat = .ok s.text) :
    (readProc pid files).1.ppid = s.ppid.toInt ∧ (readProc pid files).1.startTime = s.startTime ∧
      ((readProc pid files).2 = none ↔
        ∃ status, files.status = .ok status ∧ 0 ≤ readUID status) := by
  rw [readProc_text s pid h]
  exact readStatus_keeps _ files

namespace Sample

/-- A process that calls itself the rest of a stat line. -/
def forger : StatLine where
  pid := 4242
  comm := lit ") S 1 1 1 0 -1 4194560 0 0 0 0 0 0 0 0 20 0 1 0 1 ("
  state := 0x53
  ppid := 7
  between := [4242, 4242, 0, -1, 4194304, 1, 2, 3, 4, 5, 6, 7, 8, 20, 0, 1, 0]
  startTime := 9999
  rest := [10485760, 300]
  letter := by decide
  seventeen := rfl

def forgerFiles : ProcFiles where
  stat := .ok forger.text
  status := .ok (lit "Name:\tx\nUid:\t1000\t1000\t1000\t1000\n")
  exe := some (lit "/usr/bin/sleep")
  cgroup := some (lit "0::/user.slice\n")

end Sample

theorem comm_cannot_forge_sample :
    readProc 4242 Sample.forgerFiles =
      (⟨4242, 7, 1000, 9999, lit "sleep", lit "/user.slice"⟩, none) ∧
    (readProc 4242 Sample.forgerFiles).1.ppid = 7 ∧
      (readProc 4242 Sample.forgerFiles).1.startTime = 9999 := by
  obtain ⟨hppid, hstart, -⟩ := comm_cannot_forge Sample.forger 4242 Sample.forgerFiles rfl
  exact ⟨by decide +kernel, hppid, hstart⟩

end Grantd.Warden
