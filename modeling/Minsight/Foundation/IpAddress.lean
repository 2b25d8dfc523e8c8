import Mathlib.Data.List.Infix
import Mathlib.Data.List.MinMax
import Mathlib.Data.List.TakeDrop
import Mathlib.Data.List.TakeWhile
import Minsight.Foundation.Digits

/-! # IP addresses as texts

What `ipaddress.ip_address` reads and how it prints what it read. An address has many texts and is
printed as one of them: the digits in lower case without leading zeros, and the first of the
longest runs of zeros left out.
-/

namespace Minsight

namespace Ip

open Digits

structure IPv4Address where
  octets : List (Fin 256)
  length_octets : octets.length = 4
deriving DecidableEq

structure IPv6Address where
  hextets : List (Fin 65536)
  scopeId : Option (List Char)
  length_hextets : hextets.length = 8
  scope_ne_nil : scopeId ≠ some []
  scope_plain : ∀ scope ∈ scopeId, '%' ∉ scope ∧ '/' ∉ scope
deriving DecidableEq

inductive IpAddress
  | v4 (address : IPv4Address)
  | v6 (address : IPv6Address)
deriving DecidableEq

/-- `_parse_octet` -/
def parseOctet (text : List Char) : Option (Fin 256) :=
  if text = [] ∨ text.all isDecimal = false ∨ 3 < text.length ∨
      (text ≠ ['0'] ∧ text.head? = some '0') then none
  else
    let value := digitsValue 10 text
    if h : value < 256 then some ⟨value, h⟩ else none

/-- `IPv4Address(text)` -/
def readIPv4 (text : List Char) : Option IPv4Address := do
  let octets ← (text.splitOn '.').mapM parseOctet
  if h : octets.length = 4 then some { octets, length_octets := h } else none

/-- `_parse_hextet` -/
def parseHextet (text : List Char) : Option (Fin 65536) :=
  if text = [] ∨ text.all isHex = false ∨ 4 < text.length then none
  else
    let value := digitsValue 16 text
    if h : value < 65536 then some ⟨value, h⟩ else none

/-- `_split_scope_id` -/
def splitScopeId (text : List Char) : Option (List Char × Option (List Char)) :=
  match text.span (· ≠ '%') with
  | (address, []) => some (address, none)
  | (address, _ :: scope) =>
    if scope = [] ∨ '%' ∈ scope then none else some (address, some scope)

/-- The parts with a dotted address at their end written as two hextets. -/
def expandDotted (parts : List (List Char)) : Option (List (List Char)) :=
  let last := parts.getLast?.getD []
  if '.' ∈ last then do
    let address ← readIPv4 last
    match address.octets with
    | [a, b, c, d] =>
      some (parts.dropLast ++
        [Nat.toDigits 16 (256 * a.val + b.val), Nat.toDigits 16 (256 * c.val + d.val)])
    | _ => none
  else some parts

/-- The parts before a run of zeros, where an empty one only stands for the beginning. -/
def beforeRun : List (List Char) → Option (List (List Char))
  | [] :: rest => if rest = [] then some [] else none
  | parts => some parts

/-- The parts after a run of zeros, where an empty one only stands for the end. -/
def afterRun (parts : List (List Char)) : Option (List (List Char)) :=
  (beforeRun parts.reverse).map List.reverse

/-- The hextets that the parts between colons stand for. The first empty part between two others is
a run of zeros, and there is at most one. -/
def readParts (parts : List (List Char)) : Option (List (Fin 65536)) :=
  let inner := parts.tail.dropLast
  match inner.dropWhile (· ≠ []) with
  | [] => if parts.length = 8 then parts.mapM parseHextet else none
  | _ :: after =>
    if [] ∈ after then none
    else do
      let hi ← beforeRun (parts.head?.toList ++ inner.takeWhile (· ≠ []))
      let lo ← afterRun (after ++ parts.getLast?.toList)
      if hi.length + lo.length < 8 then
        let hi' ← hi.mapM parseHextet
        let lo' ← lo.mapM parseHextet
        some (hi' ++ List.replicate (8 - (hi.length + lo.length)) 0 ++ lo')
      else none

/-- `_ip_int_from_string` -/
def readHextets (text : List Char) : Option (List (Fin 65536)) := do
  let parts := text.splitOn ':'
  if parts.length < 3 then none
  else
    let parts ← expandDotted parts
    if 9 < parts.length then none else readParts parts

/-- `IPv6Address(text)`, where the text has no slash. -/
def readIPv6 (text : List Char) : Option IPv6Address := do
  let (address, scopeId) ← splitScopeId text
  let hextets ← readHextets address
  if h : hextets.length = 8 ∧ scopeId ≠ some [] ∧ ∀ scope ∈ scopeId, '%' ∉ scope ∧ '/' ∉ scope then
    some {
      hextets, scopeId, length_hextets := h.1, scope_ne_nil := h.2.1, scope_plain := h.2.2 }
  else none

/-- `ip_address(text)` -/
def ipAddress (text : List Char) : Option IpAddress :=
  if '/' ∈ text then none
  else ((readIPv4 text).map IpAddress.v4).or ((readIPv6 text).map IpAddress.v6)

def IPv4Address.print (address : IPv4Address) : List Char :=
  ['.'].intercalate (address.octets.map fun octet => Nat.toDigits 10 octet.val)

def hextetText (hextet : Fin 65536) : List Char := Nat.toDigits 16 hextet.val

def zerosAt (hextets : List (Fin 65536)) (i : ℕ) : ℕ := ((hextets.drop i).takeWhile (· = 0)).length

def longestRun (hextets : List (Fin 65536)) : ℕ :=
  ((List.range hextets.length).argmax (zerosAt hextets)).getD 0

/-- `_compress_hextets` -/
def compressHextets (hextets : List (Fin 65536)) : List (List Char) :=
  let start := longestRun hextets
  let stop := start + zerosAt hextets start
  if 1 < zerosAt hextets start then
    (if start = 0 then [[]] else (hextets.take start).map hextetText) ++ [] ::
      (if stop = hextets.length then [[]] else (hextets.drop stop).map hextetText)
  else hextets.map hextetText

def IPv6Address.print (address : IPv6Address) : List Char :=
  [':'].intercalate (compressHextets address.hextets) ++ (address.scopeId.map ('%' :: ·)).getD []

/-- `str(address)` -/
def IpAddress.print : IpAddress → List Char
  | .v4 address => address.print
  | .v6 address => address.print

theorem parseOctet_toDigits (octet : Fin 256) :
    parseOctet (Nat.toDigits 10 octet.val) = some octet := by
  have hlength : (Nat.toDigits 10 octet.val).length ≤ 3 :=
    (Nat.length_toDigits_le_iff (by decide) (by decide)).mpr (octet.isLt.trans (by decide))
  have hdigits : (Nat.toDigits 10 octet.val).all isDecimal = true :=
    List.all_eq_true.mpr (forall_mem_toDigits (by decide) (fun _ => isDecimal_digitChar) _)
  have hvalue : digitsValue 10 (Nat.toDigits 10 octet.val) = octet.val :=
    digitsValue_toDigits (by decide) (by decide) _
  rw [parseOctet, if_neg]
  · simp only [hvalue, octet.isLt, dif_pos]
  · rintro (h | h | h | ⟨h, hhead⟩)
    · exact Nat.toDigits_ne_nil h
    · rw [hdigits] at h
      cases h
    · omega
    · exact h (toDigits_head (by decide) (by decide) _ hhead)

theorem hextetText_ne_nil (hextet : Fin 65536) : hextetText hextet ≠ [] := Nat.toDigits_ne_nil

theorem isHex_of_mem_hextetText {hextet : Fin 65536} {c : Char} (h : c ∈ hextetText hextet) :
    isHex c = true :=
  forall_mem_toDigits (P := fun c => isHex c = true) (by decide) (fun _ => isHex_digitChar) _ c h

theorem parseHextet_hextetText (hextet : Fin 65536) :
    parseHextet (hextetText hextet) = some hextet := by
  have hlength : (hextetText hextet).length ≤ 4 :=
    (Nat.length_toDigits_le_iff (by decide) (by decide)).mpr (hextet.isLt.trans_le (by decide))
  have hdigits : (hextetText hextet).all isHex = true :=
    List.all_eq_true.mpr fun _ => isHex_of_mem_hextetText
  have hvalue : digitsValue 16 (hextetText hextet) = hextet.val :=
    digitsValue_toDigits (by decide) (by decide) _
  rw [parseHextet, if_neg]
  · simp only [hvalue, hextet.isLt, dif_pos]
  · rintro (h | h | h)
    · exact hextetText_ne_nil hextet h
    · rw [hdigits] at h
      cases h
    · omega

theorem mapM_map_some {α β : Type} {f : α → β} {g : β → Option α} (h : ∀ a, g (f a) = some a) :
    ∀ l : List α, (l.map f).mapM g = some l
  | [] => rfl
  | a :: l => by
    rw [List.map_cons, List.mapM_cons, h, mapM_map_some h l]
    rfl

theorem replicate_zerosAt (hextets : List (Fin 65536)) (i : ℕ) :
    (hextets.drop i).takeWhile (· = 0) = List.replicate (zerosAt hextets i) 0 := by
  rw [zerosAt, List.eq_replicate_iff]
  refine ⟨rfl, fun h hmem => ?_⟩
  simpa using List.all_eq_true.mp List.all_takeWhile h hmem

theorem around_zerosAt (hextets : List (Fin 65536)) (i : ℕ) :
    hextets.take i ++ List.replicate (zerosAt hextets i) 0 ++
      hextets.drop (i + zerosAt hextets i) = hextets := by
  have hdrop : hextets.drop (i + zerosAt hextets i) = (hextets.drop i).dropWhile (· = 0) := by
    have hsplit : (hextets.drop i).takeWhile (· = 0) ++ (hextets.drop i).dropWhile (· = 0) =
        hextets.drop i := List.takeWhile_append_dropWhile
    have hleft : ((hextets.drop i).takeWhile (· = 0) ++ (hextets.drop i).dropWhile (· = 0)).drop
        ((hextets.drop i).takeWhile (· = 0)).length = (hextets.drop i).dropWhile (· = 0) :=
      List.drop_left
    rw [hsplit] at hleft
    rw [← List.drop_drop, zerosAt, hleft]
  rw [← replicate_zerosAt, hdrop, List.append_assoc, List.takeWhile_append_dropWhile,
    List.take_append_drop]

theorem readParts_run {hi lo : List (List Char)} (hhi : hi ≠ []) (hlo : lo ≠ [])
    (hhi' : [] ∉ hi.tail) (hlo' : [] ∉ lo.dropLast) :
    readParts (hi ++ [] :: lo) = (do
      let hi ← beforeRun hi
      let lo ← afterRun lo
      if hi.length + lo.length < 8 then
        let hi' ← hi.mapM parseHextet
        let lo' ← lo.mapM parseHextet
        some (hi' ++ List.replicate (8 - (hi.length + lo.length)) 0 ++ lo')
      else none) := by
  obtain ⟨a, hi, rfl⟩ := List.exists_cons_of_ne_nil hhi
  rw [← List.dropLast_append_getLast hlo]
  generalize lo.getLast hlo = z
  generalize hrest : lo.dropLast = lo' at hlo'
  have hinner : ((a :: hi ++ [] :: (lo' ++ [z])).tail).dropLast = hi ++ [] :: lo' := by
    rw [List.cons_append, List.tail_cons, ← List.cons_append, ← List.append_assoc,
      List.dropLast_concat]
  have hall : ∀ part ∈ hi, decide (part ≠ []) = true := by
    intro part hpart
    rw [decide_eq_true_iff]
    rintro rfl
    exact hhi' hpart
  have hlast : (a :: hi ++ [] :: (lo' ++ [z])).getLast? = some z := by
    rw [← List.cons_append, ← List.append_assoc, List.getLast?_concat]
  rw [readParts, hinner, List.dropWhile_append_of_pos hall, List.takeWhile_append_of_pos hall,
    hlast]
  simp [hlo']

def besideRun (hextets : List (Fin 65536)) : List (List Char) :=
  if hextets = [] then [[]] else hextets.map hextetText

theorem nil_notMem_texts (hextets : List (Fin 65536)) : [] ∉ hextets.map hextetText := by
  intro h
  obtain ⟨hextet, -, htext⟩ := List.mem_map.mp h
  exact hextetText_ne_nil hextet htext

theorem besideRun_ne_nil (hextets : List (Fin 65536)) : besideRun hextets ≠ [] := by
  unfold besideRun
  split
  · exact List.cons_ne_nil _ _
  · rename_i h
    simpa using h

theorem nil_notMem_besideRun (hextets : List (Fin 65536)) :
    [] ∉ (besideRun hextets).tail ∧ [] ∉ (besideRun hextets).dropLast := by
  unfold besideRun
  split
  · simp
  · exact ⟨fun h => nil_notMem_texts _ (List.mem_of_mem_tail h),
      fun h => nil_notMem_texts _ (List.mem_of_mem_dropLast h)⟩

theorem beforeRun_of_notMem {parts : List (List Char)} (h : [] ∉ parts) :
    beforeRun parts = some parts := by
  unfold beforeRun
  split
  · exact absurd List.mem_cons_self h
  · rfl

theorem beforeRun_besideRun (hextets : List (Fin 65536)) :
    beforeRun (besideRun hextets) = some (hextets.map hextetText) := by
  unfold besideRun
  split
  · rename_i h
    rw [h]
    rfl
  · exact beforeRun_of_notMem (nil_notMem_texts _)

theorem afterRun_besideRun (hextets : List (Fin 65536)) :
    afterRun (besideRun hextets) = some (hextets.map hextetText) := by
  unfold besideRun
  split
  · rename_i h
    rw [h]
    rfl
  · have hnotMem : [] ∉ (hextets.map hextetText).reverse :=
      fun h => nil_notMem_texts _ (List.mem_reverse.mp h)
    rw [afterRun, beforeRun_of_notMem hnotMem, Option.map_some, List.reverse_reverse]

variable {hextets : List (Fin 65536)}

theorem compressHextets_run (hne : hextets ≠ [])
    (hrun : 1 < zerosAt hextets (longestRun hextets)) :
    compressHextets hextets = besideRun (hextets.take (longestRun hextets)) ++
      [] :: besideRun (hextets.drop
        (longestRun hextets + zerosAt hextets (longestRun hextets))) := by
  have htake : hextets.take (longestRun hextets) = [] ↔ longestRun hextets = 0 := by
    simp [List.take_eq_nil_iff, hne]
  have hdrop : hextets.drop (longestRun hextets + zerosAt hextets (longestRun hextets)) = [] ↔
      longestRun hextets + zerosAt hextets (longestRun hextets) = hextets.length := by
    have hlength := congrArg List.length (around_zerosAt hextets (longestRun hextets))
    simp only [List.length_append, List.length_take, List.length_replicate,
      List.length_drop] at hlength
    rw [List.drop_eq_nil_iff]
    omega
  rw [compressHextets, if_pos hrun]
  simp only [besideRun, htake, hdrop]

theorem readParts_compressHextets (h : hextets.length = 8) :
    readParts (compressHextets hextets) = some hextets := by
  by_cases hrun : 1 < zerosAt hextets (longestRun hextets)
  · have haround := around_zerosAt hextets (longestRun hextets)
    rw [compressHextets_run (List.ne_nil_of_length_pos (by omega)) hrun,
      readParts_run (besideRun_ne_nil _) (besideRun_ne_nil _) (nil_notMem_besideRun _).1
        (nil_notMem_besideRun _).2, beforeRun_besideRun, afterRun_besideRun]
    generalize longestRun hextets + zerosAt hextets (longestRun hextets) = stop at haround ⊢
    generalize zerosAt hextets (longestRun hextets) = len at haround hrun
    generalize longestRun hextets = start at haround ⊢
    have hlength := congrArg List.length haround
    rw [List.length_append, List.length_append, List.length_replicate, h] at hlength
    simp only [Option.bind_eq_bind, Option.bind_some, List.length_map,
      mapM_map_some parseHextet_hextetText]
    rw [if_pos (by omega), show 8 - ((hextets.take start).length + (hextets.drop stop).length) = len
      by omega, haround]
  · have hall : ∀ part ∈ ((hextets.map hextetText).tail).dropLast, decide (part ≠ []) = true := by
      intro part hpart
      rw [decide_eq_true_iff]
      rintro rfl
      exact nil_notMem_texts _ (List.mem_of_mem_tail (List.mem_of_mem_dropLast hpart))
    rw [compressHextets, if_neg hrun, readParts, List.dropWhile_eq_nil_iff.mpr hall]
    simp only [List.length_map, h, if_true]
    exact mapM_map_some parseHextet_hextetText hextets

theorem length_besideRun (hextets : List (Fin 65536)) :
    (besideRun hextets).length = max 1 hextets.length := by
  unfold besideRun
  split
  · rename_i h
    rw [h]
    rfl
  · rename_i h
    have := List.length_pos_of_ne_nil h
    rw [List.length_map]
    omega

theorem length_compressHextets (h : hextets.length = 8) :
    3 ≤ (compressHextets hextets).length ∧ (compressHextets hextets).length ≤ 9 := by
  by_cases hrun : 1 < zerosAt hextets (longestRun hextets)
  · have hlength := congrArg List.length (around_zerosAt hextets (longestRun hextets))
    rw [compressHextets_run (List.ne_nil_of_length_pos (by omega)) hrun, List.length_append,
      List.length_cons, length_besideRun, length_besideRun]
    rw [List.length_append, List.length_append, List.length_replicate, h] at hlength
    omega
  · rw [compressHextets, if_neg hrun, List.length_map, h]
    omega

theorem isHex_of_mem_compress {part : List Char} {c : Char} (hpart : part ∈ compressHextets hextets)
    (hc : c ∈ part) : isHex c = true := by
  have htexts : ∀ l : List (Fin 65536), part ∈ l.map hextetText → isHex c = true := by
    intro l hmem
    obtain ⟨hextet, -, rfl⟩ := List.mem_map.mp hmem
    exact isHex_of_mem_hextetText hc
  have hbeside : ∀ l : List (Fin 65536), part ∈ besideRun l → isHex c = true := by
    intro l hmem
    unfold besideRun at hmem
    split at hmem
    · rw [List.mem_singleton.mp hmem] at hc
      cases hc
    · exact htexts l hmem
  by_cases hrun : 1 < zerosAt hextets (longestRun hextets)
  · have hne : hextets ≠ [] := by
      rintro rfl
      simp [zerosAt] at hrun
    rw [compressHextets_run hne hrun, List.mem_append, List.mem_cons] at hpart
    rcases hpart with hmem | rfl | hmem
    · exact hbeside _ hmem
    · cases hc
    · exact hbeside _ hmem
  · rw [compressHextets, if_neg hrun] at hpart
    exact htexts _ hpart

theorem mem_intercalate {sep c : Char} {parts : List (List Char)}
    (h : c ∈ [sep].intercalate parts) : c = sep ∨ ∃ part ∈ parts, c ∈ part := by
  induction parts with
  | nil => simp at h
  | cons part parts ih =>
    cases parts with
    | nil => exact .inr ⟨part, List.mem_cons_self, by simpa using h⟩
    | cons next parts =>
      rw [List.intercalate_cons_cons, List.mem_append, List.mem_append,
        List.mem_singleton] at h
      rcases h with (hc | hc) | hc
      · exact .inr ⟨part, List.mem_cons_self, hc⟩
      · exact .inl hc
      · obtain heq | ⟨p, hp, hcp⟩ := ih hc
        · exact .inl heq
        · exact .inr ⟨p, List.mem_cons_of_mem _ hp, hcp⟩

theorem readHextets_compress (h : hextets.length = 8) :
    readHextets ([':'].intercalate (compressHextets hextets)) = some hextets := by
  obtain ⟨hmin, hmax⟩ := length_compressHextets h
  have hne : compressHextets hextets ≠ [] := List.ne_nil_of_length_pos (by omega)
  have hplain : ∀ part ∈ compressHextets hextets, ∀ c ∈ part, isHex c = true :=
    fun part hpart c hc => isHex_of_mem_compress hpart hc
  have hcolon : ∀ part ∈ compressHextets hextets, ':' ∉ part :=
    fun part hpart hc => absurd (hplain part hpart _ hc) (by decide)
  have hdotted : expandDotted (compressHextets hextets) = some (compressHextets hextets) := by
    refine if_neg fun hc => ?_
    rw [List.getLast?_eq_some_getLast hne, Option.getD_some] at hc
    exact absurd (hplain _ (List.getLast_mem hne) _ hc) (by decide)
  rw [readHextets]
  simp only [List.splitOn_intercalate ':' hcolon hne, hdotted, Option.bind_eq_bind,
    Option.bind_some]
  rw [if_neg (by omega), if_neg (by omega), readParts_compressHextets h]

theorem splitScopeId_append {address : List Char} (h : '%' ∉ address) (scope : Option (List Char))
    (hne : scope ≠ some []) (hplain : ∀ s ∈ scope, '%' ∉ s ∧ '/' ∉ s) :
    splitScopeId (address ++ (scope.map ('%' :: ·)).getD []) = some (address, scope) := by
  have hall : ∀ c ∈ address, decide (c ≠ '%') = true := by
    intro c hc
    rw [decide_eq_true_iff]
    rintro rfl
    exact h hc
  rw [splitScopeId, List.span_eq_takeWhile_dropWhile, List.takeWhile_append_of_pos hall,
    List.dropWhile_append_of_pos hall]
  cases scope with
  | none => simp
  | some s =>
    have hs : ¬ (s = [] ∨ '%' ∈ s) := by
      rintro (rfl | hmem)
      · exact hne rfl
      · exact (hplain s rfl).1 hmem
    simp [hs]

theorem isHex_or_colon {c : Char} (h : c ∈ [':'].intercalate (compressHextets hextets)) :
    c = ':' ∨ isHex c = true := by
  obtain heq | ⟨part, hpart, hc⟩ := mem_intercalate h
  · exact .inl heq
  · exact .inr (isHex_of_mem_compress hpart hc)

theorem readIPv6_print (address : IPv6Address) : readIPv6 address.print = some address := by
  have hplain : '%' ∉ [':'].intercalate (compressHextets address.hextets) := by
    intro h
    rcases isHex_or_colon h with h | h
    · cases h
    · exact absurd h (by decide)
  rw [readIPv6, IPv6Address.print,
    splitScopeId_append hplain _ address.scope_ne_nil address.scope_plain]
  simp only [Option.bind_eq_bind, Option.bind_some, readHextets_compress address.length_hextets]
  rw [dif_pos ⟨address.length_hextets, address.scope_ne_nil, address.scope_plain⟩]

theorem isDecimal_or_dot {address : IPv4Address} {c : Char} (h : c ∈ address.print) :
    c = '.' ∨ isDecimal c = true := by
  obtain heq | ⟨part, hpart, hc⟩ := mem_intercalate h
  · exact .inl heq
  · obtain ⟨octet, -, rfl⟩ := List.mem_map.mp hpart
    exact .inr (forall_mem_toDigits (P := fun c => isDecimal c = true) (by decide)
      (fun _ => isDecimal_digitChar) _ c hc)

theorem readIPv4_print (address : IPv4Address) : readIPv4 address.print = some address := by
  have hdot : ∀ part ∈ address.octets.map fun octet => Nat.toDigits 10 octet.val, '.' ∉ part := by
    intro part hpart
    obtain ⟨octet, -, rfl⟩ := List.mem_map.mp hpart
    intro hc
    have hdecimal := forall_mem_toDigits (P := fun c => isDecimal c = true) (by decide)
      (fun _ => isDecimal_digitChar) _ '.' hc
    exact absurd hdecimal (by decide)
  have hne : (address.octets.map fun octet => Nat.toDigits 10 octet.val) ≠ [] := by
    apply List.ne_nil_of_length_pos
    rw [List.length_map, address.length_octets]
    decide
  rw [readIPv4, IPv4Address.print, List.splitOn_intercalate '.' hdot hne,
    mapM_map_some parseOctet_toDigits]
  simp only [Option.bind_eq_bind, Option.bind_some]
  rw [dif_pos address.length_octets]

theorem mapM_isSome {α β : Type} {f : α → Option β} {ys : List β} :
    ∀ {l : List α}, l.mapM f = some ys → ∀ a ∈ l, (f a).isSome = true
  | [], _ => nofun
  | a :: l, h => by
    rw [List.mapM_cons] at h
    obtain ⟨b, hb, h⟩ := Option.bind_eq_some_iff.mp h
    obtain ⟨bs, hbs, -⟩ := Option.bind_eq_some_iff.mp h
    rw [List.forall_mem_cons, hb]
    exact ⟨rfl, mapM_isSome hbs⟩

theorem notMem_of_readIPv4 {text : List Char} {address : IPv4Address}
    (h : readIPv4 text = some address) {c : Char} (hc : c ≠ '.') (hdigit : isDecimal c = false) :
    c ∉ text := by
  intro hmem
  obtain ⟨octets, hoctets, -⟩ := Option.bind_eq_some_iff.mp h
  have hjoined : ['.'].intercalate (text.splitOn '.') = text := List.intercalate_splitOn '.'
  rw [← hjoined] at hmem
  obtain heq | ⟨part, hpart, hcp⟩ := mem_intercalate hmem
  · exact hc heq
  · have hsome := mapM_isSome hoctets part hpart
    have hall : part.all isDecimal = false := by
      rw [List.all_eq_false]
      exact ⟨c, hcp, by simp [hdigit]⟩
    rw [parseOctet, if_pos (.inr (.inl hall))] at hsome
    cases hsome

theorem colon_mem_print (address : IPv6Address) : ':' ∈ address.print := by
  have hlength := (length_compressHextets address.length_hextets).1
  have hmem : ∀ parts : List (List Char), 2 ≤ parts.length → ':' ∈ [':'].intercalate parts := by
    rintro (_ | ⟨a, _ | ⟨b, rest⟩⟩) h
    · cases h
    · simp at h
    · simp [List.intercalate_cons_cons]
  exact List.mem_append_left _ (hmem _ (by omega))

theorem slash_notMem_print (a : IpAddress) : '/' ∉ a.print := by
  intro h
  cases a with
  | v4 address =>
    rcases isDecimal_or_dot h with h | h
    · cases h
    · exact absurd h (by decide)
  | v6 address =>
    rcases List.mem_append.mp h with h | h
    · rcases isHex_or_colon h with h | h
      · cases h
      · exact absurd h (by decide)
    · cases hscope : address.scopeId with
      | none => simp [hscope] at h
      | some scope =>
        have hplain := (address.scope_plain scope hscope).2
        simp [hscope, hplain] at h

theorem ipAddress_print (a : IpAddress) : ipAddress a.print = some a := by
  rw [ipAddress, if_neg (slash_notMem_print a)]
  cases a with
  | v4 address =>
    rw [IpAddress.print, readIPv4_print]
    rfl
  | v6 address =>
    have hnone : readIPv4 address.print = none := by
      cases h : readIPv4 address.print with
      | none => rfl
      | some other =>
        exact absurd (colon_mem_print address) (notMem_of_readIPv4 h (by decide) (by decide))
    rw [IpAddress.print, hnone, readIPv6_print]
    rfl

/-- A text is a printed address, or its scope is the rest of it after a percent sign. -/
theorem scope_suffix {text : List Char} {address : IPv6Address} {scope : List Char}
    (h : readIPv6 text = some address) (hscope : address.scopeId = some scope) :
    ∃ pre, text = pre ++ '%' :: scope := by
  obtain ⟨⟨pre, scopeId⟩, hsplit, h⟩ := Option.bind_eq_some_iff.mp h
  obtain ⟨hextets, -, h⟩ := Option.bind_eq_some_iff.mp h
  split at h
  · obtain rfl := Option.some.inj h
    obtain rfl : scopeId = some scope := hscope
    rw [splitScopeId, List.span_eq_takeWhile_dropWhile] at hsplit
    have happend := List.takeWhile_append_dropWhile (p := (· ≠ '%')) (l := text)
    split at hsplit
    · simp at hsplit
    · rename_i address' c scope' heq
      obtain ⟨rfl, hdrop⟩ := Prod.mk.inj heq
      split at hsplit
      · cases hsplit
      · have hscope' : scope' = scope := by simpa using congrArg (Option.map Prod.snd) hsplit
        have hc : c = '%' := by
          have hhead := List.head?_dropWhile_not (· ≠ '%') text
          rw [hdrop] at hhead
          simpa using hhead
        exact ⟨_, by rw [← hc, ← hscope', ← hdrop, happend]⟩
  · cases h

end Ip

end Minsight
