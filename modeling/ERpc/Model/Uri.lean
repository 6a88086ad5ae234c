import Mathlib.Algebra.Group.Nat.Defs
import Mathlib.Algebra.Group.Int.Defs
import Mathlib.Data.Int.Init
import Mathlib.Data.List.TakeWhile
import ERpc.Model.State

/-!
# Remote URIs

`create_session_st` reads the hostname and the management UDP port of the remote Nexus from a
URI `hostname:udp_port` (`util/autorun_helpers.h`). The port goes through `std::stoi` and then
into a `uint16_t`. The helpers only `assert` that the URI is well formed, so the model follows
the code on any string: without a colon, `colon_pos + 1` wraps around to `0` and the port is
read from the whole URI; a `stoi` that throws is `none`.

`is_valid_uri` cuts the URI at every colon with `split`, which reads tokens with `std::getline`:
a `getline` that reads nothing fails, so an empty last field is dropped. It accepts a URI with two
non-empty tokens, that is `hostname:text` or `hostname:text:` with neither part holding a colon
(`isValidUri_iff`), whatever `text` is. `SessionEndpoint::uri` writes `hostname:port` with the
port in decimal, and the helpers read it back (`uri_round_trip`).
-/

namespace ERpc

/-- `isspace` in the C locale. -/
def isSpace (c : Char) : Bool :=
  c == ' ' || c == '\t' || c == '\n' || c == '\x0b' || c == '\x0c' || c == '\r'

/-- The value of a run of decimal digits. -/
def digitsValue (ds : List Char) : ℕ :=
  ds.foldl (fun n d => 10 * n + (d.toNat - '0'.toNat)) 0

/-- `std::stoi (s)`: `strtol` in base 10 reads leading white space, an optional sign and the
longest run of digits after it; `stoi` throws if there is no digit or if the value does not fit
an `int`. -/
def stoi (s : String) : Option ℤ :=
  let cs := s.toList.dropWhile isSpace
  let (neg, cs) : Bool × List Char :=
    match cs with
    | '-' :: r => (true, r)
    | '+' :: r => (false, r)
    | r => (false, r)
  let ds := cs.takeWhile Char.isDigit
  if ds.isEmpty then none
  else
    let v : ℤ := if neg then -(digitsValue ds : ℤ) else digitsValue ds
    if v < -2 ^ 31 ∨ 2 ^ 31 ≤ v then none else some v

/-- `extract_hostname_from_uri`: `uri.substr (0, uri.find (':'))`. -/
def extractHostnameFromUri (uri : String) : String :=
  String.ofList (uri.toList.takeWhile (· ≠ ':'))

/-- `extract_udp_port_from_uri`: `stoi` of what follows the first colon, stored in a
`uint16_t`. -/
def extractUdpPortFromUri (uri : String) : Option ℕ :=
  let cs := uri.toList
  let rest := if ':' ∈ cs then (cs.dropWhile (· ≠ ':')).drop 1 else cs
  (stoi (String.ofList rest)).map fun v => (v % 2 ^ 16).toNat

/-- The tokens `split (input, delimiter)` reads with `std::getline` from `cs`, where the current
`getline` has read `token` so far. A `getline` that reads nothing at the end fails. -/
def splitGo (delimiter : Char) : List Char → List Char → List String
  | [], token => if token.isEmpty then [] else [String.ofList token]
  | c :: cs, token =>
    if c = delimiter then String.ofList token :: splitGo delimiter cs []
    else splitGo delimiter cs (token ++ [c])

def split (input : String) (delimiter : Char) : List String := splitGo delimiter input.toList []

def isValidUri (uri : String) : Bool :=
  match split uri ':' with
  | [hostname, port] => hostname.length > 0 && port.length > 0
  | _ => false

def SessionEndpoint.uri (e : SessionEndpoint) : String :=
  e.hostname ++ ":" ++ toString e.smUdpPort

/-- The URIs of the form `hostname:port` with a non-empty hostname free of colons and a port below
`2 ^ 16` in canonical decimal. -/
def UriGrammar (uri : String) : Prop :=
  ∃ hostname : String, ∃ port < 2 ^ 16,
    hostname ≠ "" ∧ ':' ∉ hostname.toList ∧ uri = hostname ++ ":" ++ toString port

section Split

variable {d : Char} {t rest cs token : List Char}

theorem splitGo_append_of_not_mem (ht : d ∉ t) :
    splitGo d (t ++ rest) token = splitGo d rest (token ++ t) := by
  induction t generalizing token with
  | nil => simp
  | cons c t ih =>
    have hc : c ≠ d := fun h => ht (h ▸ List.mem_cons_self ..)
    rw [List.cons_append, splitGo, if_neg hc, ih (fun h => ht (List.mem_cons_of_mem c h)),
      List.append_assoc, List.singleton_append]

theorem splitGo_of_not_mem (hcs : d ∉ cs) :
    splitGo d cs token = if token ++ cs = [] then [] else [String.ofList (token ++ cs)] := by
  have := @splitGo_append_of_not_mem d cs [] token hcs
  rw [List.append_nil] at this
  rw [this, splitGo]
  simp [List.isEmpty_iff]

theorem splitGo_first (ht : d ∉ t) :
    splitGo d (t ++ d :: rest) token = String.ofList (token ++ t) :: splitGo d rest [] := by
  rw [splitGo_append_of_not_mem ht, splitGo, if_pos rfl]

theorem exists_first_of_mem (h : d ∈ cs) : ∃ t rest, cs = t ++ d :: rest ∧ d ∉ t := by
  induction cs with
  | nil => exact absurd h List.not_mem_nil
  | cons c cs ih =>
    by_cases hc : c = d
    · exact ⟨[], cs, by rw [hc]; rfl, List.not_mem_nil⟩
    · obtain ⟨t, rest, rfl, ht⟩ := ih ((List.mem_cons.1 h).resolve_left (Ne.symm hc))
      exact ⟨c :: t, rest, rfl, by simp [ht, Ne.symm hc]⟩

theorem splitGo_eq_nil_iff : splitGo d cs [] = [] ↔ cs = [] := by
  constructor
  · intro h
    by_cases hd : d ∈ cs
    · obtain ⟨t, rest, rfl, ht⟩ := exists_first_of_mem hd
      rw [splitGo_first ht] at h
      exact absurd h (List.cons_ne_nil _ _)
    · rw [splitGo_of_not_mem hd, List.nil_append] at h
      split_ifs at h with hc
      · exact hc
  · rintro rfl
    rfl

end Split

section Decimal

theorem digitsValue_append_singleton (ds : List Char) (c : Char) :
    digitsValue (ds ++ [c]) = 10 * digitsValue ds + (c.toNat - '0'.toNat) := by
  simp [digitsValue, List.foldl_append]

theorem digitChar_sub_zero {n : ℕ} (h : n < 10) : (Nat.digitChar n).toNat - '0'.toNat = n := by
  have : ∀ m < 10, (Nat.digitChar m).toNat - '0'.toNat = m := by decide
  exact this n h

theorem digitsValue_toDigits (n : ℕ) : digitsValue (Nat.toDigits 10 n) = n := by
  induction n using Nat.strong_induction_on with
  | _ n ih =>
    by_cases hn : n < 10
    · rw [Nat.toDigits_of_lt_base hn, ← List.nil_append [_], digitsValue_append_singleton,
        digitChar_sub_zero hn]
      simp [digitsValue]
    · rw [Nat.toDigits_of_base_le (by decide) (Nat.not_lt.1 hn), digitsValue_append_singleton,
        ih (n / 10) (by omega), digitChar_sub_zero (Nat.mod_lt n (by decide))]
      omega

theorem toString_toList (n : ℕ) : (toString n).toList = Nat.toDigits 10 n := by
  rw [Nat.toString_eq_repr, Nat.repr_eq_ofList_toDigits, String.toList_ofList]

/-- `stoi` reads back a number `toString` wrote, if it fits an `int`. -/
theorem stoi_toString {n : ℕ} (hn : n < 2 ^ 31) : stoi (toString n) = some (n : ℤ) := by
  obtain ⟨c, r, hcr⟩ := List.exists_cons_of_ne_nil (Nat.toDigits_ne_nil (n := n) (b := 10))
  have hdig : ∀ x ∈ Nat.toDigits 10 n, x.isDigit = true :=
    fun x hx => Nat.isDigit_of_mem_toDigits (by decide) le_rfl hx
  have hc : c.isDigit = true := hdig c (by rw [hcr]; exact List.mem_cons_self ..)
  have hsp : isSpace c = false := by
    cases hs : isSpace c
    · rfl
    · simp only [isSpace, Bool.or_eq_true, beq_iff_eq] at hs
      rcases hs with ((((rfl | rfl) | rfl) | rfl) | rfl) | rfl <;> exact absurd hc (by decide)
  have hmin : c ≠ '-' := fun h => absurd (h ▸ hc) (by decide)
  have hplus : c ≠ '+' := fun h => absurd (h ▸ hc) (by decide)
  have hall : (c :: r).takeWhile Char.isDigit = c :: r :=
    List.takeWhile_eq_self_iff.2 (by rw [← hcr]; exact hdig)
  have hval : digitsValue (c :: r) = n := by rw [← hcr, digitsValue_toDigits]
  unfold stoi
  rw [toString_toList, hcr, List.dropWhile_cons, if_neg (by rw [hsp]; decide)]
  dsimp only
  split
  · rename_i heq
    exact absurd (List.cons_eq_cons.1 heq).1 hmin
  · rename_i heq
    exact absurd (List.cons_eq_cons.1 heq).1 hplus
  · simp only [hall, List.isEmpty_cons, hval, Bool.false_eq_true, if_false]
    rw [if_neg (by omega)]

end Decimal

section Extract

variable {d : Char} {h h' p p' : List Char}

theorem takeWhile_ne_append (hh : d ∉ h) : (h ++ d :: p).takeWhile (· ≠ d) = h := by
  induction h with
  | nil => simp
  | cons c h ih =>
    have hc : c ≠ d := fun e => hh (e ▸ List.mem_cons_self ..)
    rw [List.cons_append, List.takeWhile_cons, if_pos (by simpa using hc),
      ih (fun e => hh (List.mem_cons_of_mem c e))]

theorem dropWhile_ne_append (hh : d ∉ h) : (h ++ d :: p).dropWhile (· ≠ d) = d :: p := by
  induction h with
  | nil => simp
  | cons c h ih =>
    have hc : c ≠ d := fun e => hh (e ▸ List.mem_cons_self ..)
    rw [List.cons_append, List.dropWhile_cons, if_pos (by simpa using hc),
      ih (fun e => hh (List.mem_cons_of_mem c e))]

theorem append_cons_eq_iff (hh : d ∉ h) (hh' : d ∉ h') :
    h ++ d :: p = h' ++ d :: p' ↔ h = h' ∧ p = p' := by
  constructor
  · intro heq
    have ht := congrArg (List.takeWhile (· ≠ d)) heq
    have hd := congrArg (List.dropWhile (· ≠ d)) heq
    rw [takeWhile_ne_append hh, takeWhile_ne_append hh'] at ht
    rw [dropWhile_ne_append hh, dropWhile_ne_append hh'] at hd
    exact ⟨ht, List.cons.inj hd |>.2⟩
  · rintro ⟨rfl, rfl⟩
    rfl

theorem extractHostnameFromUri_append (hh : ':' ∉ h) :
    extractHostnameFromUri (String.ofList (h ++ ':' :: p)) = String.ofList h := by
  rw [extractHostnameFromUri, String.toList_ofList, takeWhile_ne_append hh]

theorem extractUdpPortFromUri_append (hh : ':' ∉ h) :
    extractUdpPortFromUri (String.ofList (h ++ ':' :: p)) =
      (stoi (String.ofList p)).map fun v => (v % 2 ^ 16).toNat := by
  unfold extractUdpPortFromUri
  dsimp only
  rw [String.toList_ofList, if_pos (List.mem_append_right h (List.mem_cons_self ..)),
    dropWhile_ne_append hh]
  rfl

theorem colon_not_mem_toDigits (n : ℕ) : ':' ∉ Nat.toDigits 10 n :=
  fun hm => absurd (Nat.isDigit_of_mem_toDigits (by decide) le_rfl hm) (by decide)

theorem hostname_port_toList (hostname : String) (port : ℕ) :
    (hostname ++ ":" ++ toString port).toList = hostname.toList ++ ':' :: Nat.toDigits 10 port := by
  rw [String.toList_append, String.toList_append, toString_toList, List.append_assoc]
  rfl

end Extract

/-- `is_valid_uri` accepts `hostname:text` and `hostname:text:` for non-empty `hostname` and
`text` free of colons, and nothing else. -/
theorem isValidUri_iff (uri : String) :
    isValidUri uri = true ↔ ∃ h p : List Char, h ≠ [] ∧ p ≠ [] ∧ ':' ∉ h ∧ ':' ∉ p ∧
      (uri.toList = h ++ ':' :: p ∨ uri.toList = h ++ ':' :: p ++ [':']) := by
  constructor
  · intro hv
    unfold isValidUri split at hv
    generalize uri.toList = cs at hv ⊢
    by_cases h1 : ':' ∈ cs
    · obtain ⟨t1, r1, rfl, ht1⟩ := exists_first_of_mem h1
      rw [splitGo_first ht1, List.nil_append] at hv
      by_cases h2 : ':' ∈ r1
      · obtain ⟨t2, r2, rfl, ht2⟩ := exists_first_of_mem h2
        rw [splitGo_first ht2, List.nil_append] at hv
        rcases hr2 : splitGo ':' r2 [] with _ | ⟨x, xs⟩
        · rw [splitGo_eq_nil_iff.1 hr2]
          rw [hr2] at hv
          simp only [Bool.and_eq_true, decide_eq_true_eq, String.length_ofList] at hv
          exact ⟨t1, t2, List.ne_nil_of_length_pos hv.1, List.ne_nil_of_length_pos hv.2, ht1, ht2,
            .inr (by simp)⟩
        · rw [hr2] at hv
          simp at hv
      · rw [splitGo_of_not_mem h2, List.nil_append] at hv
        split_ifs at hv with hr1
        simp only [Bool.and_eq_true, decide_eq_true_eq, String.length_ofList] at hv
        exact ⟨t1, r1, List.ne_nil_of_length_pos hv.1, hr1, ht1, h2, .inl rfl⟩
    · rw [splitGo_of_not_mem h1] at hv
      split_ifs at hv
  · rintro ⟨h, p, hh, hp, hh', hp', hu | hu⟩
    · unfold isValidUri split
      rw [hu, splitGo_first hh', List.nil_append, splitGo_of_not_mem hp', List.nil_append,
        if_neg hp]
      simp [String.length_ofList, List.length_pos_iff, hh, hp]
    · unfold isValidUri split
      rw [hu, List.append_assoc, List.cons_append, splitGo_first hh', List.nil_append,
        splitGo_first hp', List.nil_append]
      simp [String.length_ofList, List.length_pos_iff, hh, hp, splitGo]

/-- A URI of the grammar is accepted and reads back as its hostname and port. -/
theorem uri_of_grammar {hostname : String} {port : ℕ} (hh : hostname ≠ "")
    (hc : ':' ∉ hostname.toList) (hp : port < 2 ^ 16) :
    isValidUri (hostname ++ ":" ++ toString port) = true ∧
      extractHostnameFromUri (hostname ++ ":" ++ toString port) = hostname ∧
      extractUdpPortFromUri (hostname ++ ":" ++ toString port) = some port := by
  have hu : hostname ++ ":" ++ toString port =
      String.ofList (hostname.toList ++ ':' :: Nat.toDigits 10 port) := by
    rw [← hostname_port_toList, String.ofList_toList]
  have hne : hostname.toList ≠ [] := fun e => hh (String.toList_inj.1 (by rw [e]; rfl))
  refine ⟨(isValidUri_iff _).2 ⟨_, _, hne, Nat.toDigits_ne_nil, hc, colon_not_mem_toDigits port,
    .inl (hostname_port_toList hostname port)⟩, ?_, ?_⟩
  · rw [hu, extractHostnameFromUri_append hc, String.ofList_toList]
  · rw [hu, extractUdpPortFromUri_append hc, ← String.toList_ofList (l := Nat.toDigits 10 port),
      String.ofList_toList, ← Nat.repr_eq_ofList_toDigits, ← Nat.toString_eq_repr,
      stoi_toString (by omega)]
    simp only [Option.map_some, Option.some.injEq]
    omega

/-- `SessionEndpoint::uri` of an endpoint with a hostname free of colons is accepted and reads
back as its hostname and management port. -/
theorem uri_round_trip (e : SessionEndpoint) (hh : e.hostname ≠ "")
    (hc : ':' ∉ e.hostname.toList) (hp : e.smUdpPort < 2 ^ 16) :
    isValidUri e.uri = true ∧ extractHostnameFromUri e.uri = e.hostname ∧
      extractUdpPortFromUri e.uri = some e.smUdpPort :=
  uri_of_grammar hh hc hp

/-- `is_valid_uri` accepts a hostname and any port text after one colon, but such a URI is of
the grammar only when its text is a port below `2 ^ 16` in canonical decimal. -/
theorem is_valid_uri_accepts_any_port_text (h p : List Char) (hh : h ≠ []) (hc : ':' ∉ h)
    (hp : p ≠ []) (hpc : ':' ∉ p) :
    isValidUri (String.ofList (h ++ ':' :: p)) = true ∧
      (UriGrammar (String.ofList (h ++ ':' :: p)) ↔ ∃ n < 2 ^ 16, p = Nat.toDigits 10 n) := by
  refine ⟨(isValidUri_iff _).2 ⟨h, p, hh, hp, hc, hpc, .inl String.toList_ofList⟩, ?_, ?_⟩
  · rintro ⟨hostname, port, hport, -, hcol, heq⟩
    have := congrArg String.toList heq
    rw [String.toList_ofList, hostname_port_toList] at this
    exact ⟨port, hport, ((append_cons_eq_iff hc hcol).1 this).2⟩
  · rintro ⟨n, hn, rfl⟩
    refine ⟨String.ofList h, n, hn, fun e => hh ?_, by rwa [String.toList_ofList], ?_⟩
    · simpa using congrArg String.toList e
    · rw [← String.toList_inj, hostname_port_toList, String.toList_ofList, String.toList_ofList]

/-- A trailing colon and a port above `2 ^ 16` pass the check too; the port wraps. -/
example : isValidUri "node:5:" = true ∧ isValidUri "node:70000" = true ∧
    extractUdpPortFromUri "node:70000" = some 4464 := by decide

/-- `node:abc` is accepted, is not of the grammar, and has no port. -/
theorem is_valid_uri_accepts_any_port_text_abc :
    isValidUri "node:abc" = true ∧ ¬ UriGrammar "node:abc" ∧ extractUdpPortFromUri "node:abc" = none := by
  have hu : "node:abc" = String.ofList (['n', 'o', 'd', 'e'] ++ ':' :: ['a', 'b', 'c']) := by decide
  obtain ⟨hv, hg⟩ := is_valid_uri_accepts_any_port_text ['n', 'o', 'd', 'e'] ['a', 'b', 'c']
    (by decide) (by decide) (by decide) (by decide)
  refine ⟨hu ▸ hv, fun hgr => ?_, by decide⟩
  obtain ⟨n, -, hn⟩ := hg.1 (hu ▸ hgr)
  have : 'a' ∈ Nat.toDigits 10 n := by rw [← hn]; exact List.mem_cons_self ..
  exact absurd (Nat.isDigit_of_mem_toDigits (by decide) le_rfl this) (by decide)

end ERpc
