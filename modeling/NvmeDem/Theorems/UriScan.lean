import NvmeDem.Dem.UriScan
import Mathlib.Data.List.ReduceOption
import Mathlib.Data.List.TakeWhile
import Mathlib.Tactic.Ring

/-!
# What the split of a URI reads and writes

The loop stays in the copy of the URI, because the copy ends with a zero, and in the array of the parts, because it ends one place before
it would store behind it. What can go wrong is before the loop and after it: the daemon skips six characters of a URI that does not begin
with a slash, whether or not there are six, and it looks at the place of the last slash in the array, also when this is the ninth
(`parseUri_safe_iff`). A URI of up to eight parts is split into these parts, by the daemon and by an endpoint (`parseUri_join`).
-/

namespace NvmeDem.UriScan

variable {mem uri text rest : List Char} {p depth : Nat} {i : Int} {part : List (Option Nat)} {c : Char}

/-! ## Steps of the loop -/

theorem scan_done : scan mem p i 0 part = .ok { mem := mem, i := i, part := part } := by
  rw [scan]
  rfl

/-- The character at a place and what is behind it. -/
theorem at_of_drop (h : mem.drop p = c :: rest) : mem[p]? = some c ∧ mem.drop (p + 1) = rest := by
  constructor
  · rw [← List.head?_drop, h]
    rfl
  · rw [← List.tail_drop, h]
    rfl

theorem scan_zero (h : mem.drop p = nul :: rest) : scan mem p i depth part = .ok { mem := mem, i := i, part := part } := by
  rw [scan]
  split
  · rfl
  · split
    · rename_i hnone
      rw [(at_of_drop h).1] at hnone
      cases hnone
    · rename_i c hc
      rw [(at_of_drop h).1] at hc
      rw [if_pos (Option.some.inj hc).symm]

theorem scan_other (h : mem.drop p = c :: rest) (hz : c ≠ nul) (hs : c ≠ '/') (hd : depth ≠ 0) :
    scan mem p i depth part = scan mem (p + 1) i depth part := by
  conv_lhs => rw [scan]
  rw [if_neg hd]
  split
  · rename_i hnone
    rw [(at_of_drop h).1] at hnone
    cases hnone
  · rename_i c' hc
    rw [(at_of_drop h).1] at hc
    obtain rfl := Option.some.inj hc
    rw [if_neg hz, if_neg hs]

theorem scan_slash (h : mem.drop p = '/' :: rest) :
    scan mem p i (depth + 1) part =
      if depth = 0 then scan (mem.set p nul) (p + 1) (i + 1) 0 part
      else if 0 ≤ i + 1 ∧ i + 1 < part.length then
        scan (mem.set p nul) (p + 1) (i + 1) depth (part.set (i + 1).toNat (some (p + 1)))
      else .error .outOfBounds := by
  conv_lhs => rw [scan]
  rw [if_neg (Nat.succ_ne_zero depth)]
  split
  · rename_i hnone
    rw [(at_of_drop h).1] at hnone
    cases hnone
  · rename_i c hc
    rw [(at_of_drop h).1] at hc
    obtain rfl := Option.some.inj hc
    rw [if_neg (by decide), if_pos rfl, Nat.add_sub_cancel]
    split
    · rename_i hzero
      rw [hzero]
    · rfl

theorem drop_set_succ (mem : List Char) (p : Nat) (c : Char) : (mem.set p c).drop (p + 1) = mem.drop (p + 1) :=
  List.drop_set_of_lt (Nat.lt_succ_self p)

/-! ## What is read and written -/

/-- The slashes that the loop comes to: those before the first zero. -/
def slashes (text : List Char) : Nat := (text.takeWhile (· ≠ nul)).count '/'

theorem slashes_cons (c : Char) (text : List Char) :
    slashes (c :: text) = if c = nul then 0 else (if c = '/' then 1 else 0) + slashes text := by
  unfold slashes
  by_cases hz : c = nul
  · rw [if_pos hz, List.takeWhile_cons_of_neg (by simpa using hz)]
    rfl
  · rw [if_neg hz, List.takeWhile_cons_of_pos (by simpa using hz), List.count_cons]
    by_cases hs : c = '/' <;> simp [hs, Nat.add_comm]

/-- The loop stays in the copy and in the array when a zero is ahead and there is a place for each part that it stores. -/
theorem scan_ok (hi : -1 ≤ i) (hpart : i + depth = part.length) (htext : mem.drop p = text) (hzero : nul ∈ text) :
    ∃ s, scan mem p i depth part = .ok s ∧ s.part.length = part.length ∧ s.i = i + min depth (slashes text) := by
  induction text generalizing mem p i depth part with
  | nil => cases hzero
  | cons c rest ih =>
    rw [slashes_cons]
    rcases depth with _ | depth
    · exact ⟨_, scan_done, rfl, by simp⟩
    · by_cases hz : c = nul
      · subst hz
        exact ⟨_, scan_zero htext, rfl, by simp⟩
      · have hrest : mem.drop (p + 1) = rest := (at_of_drop htext).2
        have hahead : nul ∈ rest := (List.mem_cons.mp hzero).resolve_left (Ne.symm hz)
        rw [if_neg hz]
        by_cases hs : c = '/'
        · subst hs
          rw [scan_slash htext, if_pos rfl]
          rcases depth with _ | depth
          · rw [if_pos rfl, scan_done]
            exact ⟨_, rfl, rfl, by dsimp only; omega⟩
          · rw [if_neg (Nat.succ_ne_zero depth), if_pos (by omega)]
            obtain ⟨s, hscan, hlen, hlast⟩ := @ih (mem.set p nul) (p + 1) (depth + 1) (i + 1)
              (part.set (i + 1).toNat (some (p + 1))) (by omega) (by rw [List.length_set]; omega)
              (by rw [drop_set_succ, hrest]) hahead
            exact ⟨s, hscan, by rw [hlen, List.length_set], by rw [hlast]; omega⟩
        · rw [scan_other htext hz hs (Nat.succ_ne_zero depth), if_neg hs]
          obtain ⟨s, hscan, hlen, hlast⟩ := ih hi hpart hrest hahead
          exact ⟨s, hscan, hlen, by rw [hlast, Nat.zero_add]⟩

/-! ## A URI of some parts -/

/-- The text of some parts, each behind a slash. -/
def joined (parts : List (List Char)) : List Char := parts.flatMap (fun part => '/' :: part)

/-- The same text after the split. -/
def split (parts : List (List Char)) : List Char := parts.flatMap (fun part => nul :: part)

/-- Where the parts begin when the text begins at `o`. -/
def pointers (o : Nat) : List (List Char) → List Nat
  | [] => []
  | part :: parts => (o + 1) :: pointers (o + 1 + part.length) parts

/-- Store pointers one behind the other. -/
def store (part : List (Option Nat)) (j : Nat) : List Nat → List (Option Nat)
  | [] => part
  | p :: ps => store (part.set j (some p)) (j + 1) ps

/-- No part has a slash or a zero. -/
def Separate (parts : List (List Char)) : Prop := ∀ part ∈ parts, '/' ∉ part ∧ nul ∉ part

/-- The loop goes over a text without slashes. -/
theorem scan_skip {front word rest : List Char} (hs : '/' ∉ word) (hz : nul ∉ word) (hd : depth ≠ 0) :
    scan (front ++ (word ++ rest)) front.length i depth part = scan (front ++ (word ++ rest)) (front.length + word.length) i depth part := by
  induction word generalizing front with
  | nil => rfl
  | cons c word ih =>
    rw [List.mem_cons, not_or] at hs hz
    have htext : (front ++ (c :: word ++ rest)).drop front.length = c :: (word ++ rest) := List.drop_left
    rw [scan_other htext (Ne.symm hz.1) (Ne.symm hs.1) hd]
    have hfront : front ++ (c :: word ++ rest) = (front ++ [c]) ++ (word ++ rest) := by simp
    have ih := @ih (front ++ [c]) hs.2 hz.2
    rw [← hfront, List.length_append, List.length_singleton] at ih
    rw [ih, List.length_cons]
    congr 1
    omega

/-- The loop over some parts stores a pointer to each and puts a zero before it. -/
theorem scan_join {parts : List (List Char)} {front rest : List Char} (h : Separate parts) (hd : parts.length < depth) (hi : -1 ≤ i)
    (hroom : i + 1 + parts.length ≤ part.length) :
    scan (front ++ (joined parts ++ nul :: rest)) front.length i depth part =
      .ok { mem := front ++ (split parts ++ nul :: rest), i := i + parts.length,
            part := store part (i + 1).toNat (pointers front.length parts) } := by
  induction parts generalizing front i depth part with
  | nil =>
    have htext : (front ++ (joined [] ++ nul :: rest)).drop front.length = nul :: rest := List.drop_left
    rw [scan_zero htext]
    simp [joined, split, pointers, store]
  | cons word parts ih =>
    obtain ⟨hword, hparts⟩ := List.forall_mem_cons.mp h
    obtain ⟨depth, rfl⟩ : ∃ d, depth = d + 1 := ⟨depth - 1, by omega⟩
    rw [List.length_cons] at hd hroom
    have htext : (front ++ (joined (word :: parts) ++ nul :: rest)).drop front.length =
        '/' :: (word ++ (joined parts ++ nul :: rest)) := by
      rw [List.drop_left]
      simp [joined]
    have hset : (front ++ (joined (word :: parts) ++ nul :: rest)).set front.length nul =
        (front ++ [nul]) ++ (word ++ (joined parts ++ nul :: rest)) := by
      rw [List.set_append_right _ _ (Nat.le_refl _)]
      simp [joined]
    have hstart : front.length + 1 = (front ++ [nul]).length := by simp
    have hskip : (front ++ [nul]).length + word.length = (front ++ nul :: word).length := by
      simp only [List.length_append, List.length_cons, List.length_nil]
      omega
    have hfront : (front ++ [nul]) ++ (word ++ (joined parts ++ nul :: rest)) =
        (front ++ nul :: word) ++ (joined parts ++ nul :: rest) := by simp
    rw [scan_slash htext, if_neg (by omega), if_pos (by omega), hset, hstart, scan_skip hword.1 hword.2 (by omega), hskip, hfront,
      ih hparts (by omega) (by omega) (by rw [List.length_set]; omega)]
    have hnext : (i + 1 + 1).toNat = (i + 1).toNat + 1 := by omega
    have hlast : i + 1 + (parts.length : Int) = i + (word :: parts).length := by
      rw [List.length_cons]
      push_cast
      ring
    have hmem : front ++ nul :: word ++ (split parts ++ nul :: rest) = front ++ (split (word :: parts) ++ nul :: rest) := by
      simp [split]
    rw [hnext, hlast, hmem, ← hskip, ← hstart]
    rfl

theorem store_eq (front : List (Option Nat)) (n : Nat) (ps : List Nat) (h : ps.length ≤ n) :
    store (front ++ List.replicate n none) front.length ps = front ++ (ps.map some ++ List.replicate (n - ps.length) none) := by
  induction ps generalizing front n with
  | nil => simp [store]
  | cons p ps ih =>
    obtain ⟨n, rfl⟩ : ∃ m, n = m + 1 := ⟨n - 1, by rw [List.length_cons] at h; omega⟩
    have hset : (front ++ List.replicate (n + 1) none).set front.length (some p) = (front ++ [some p]) ++ List.replicate n none := by
      rw [List.set_append_right _ _ (Nat.le_refl _), List.replicate_succ]
      simp
    have hlen : front.length + 1 = (front ++ [some p]).length := by simp
    rw [store, hset, hlen, ih _ _ (Nat.le_of_succ_le_succ h)]
    simp

theorem length_pointers (o : Nat) (parts : List (List Char)) : (pointers o parts).length = parts.length := by
  induction parts generalizing o with
  | nil => rfl
  | cons part parts ih => rw [pointers, List.length_cons, List.length_cons, ih]

/-- The strings at the pointers are the parts. -/
theorem strings_eq {parts : List (List Char)} {front rest : List Char} (h : Separate parts) :
    (pointers front.length parts).map (stringAt (front ++ (split parts ++ nul :: rest))) = parts := by
  induction parts generalizing front with
  | nil => rfl
  | cons word parts ih =>
    obtain ⟨hword, hparts⟩ := List.forall_mem_cons.mp h
    have hmem : front ++ (split (word :: parts) ++ nul :: rest) = (front ++ [nul]) ++ (word ++ (split parts ++ nul :: rest)) := by
      simp [split]
    have hnext : front ++ (split (word :: parts) ++ nul :: rest) = (front ++ nul :: word) ++ (split parts ++ nul :: rest) := by
      simp [split]
    have hend : ∃ s, split parts ++ nul :: rest = nul :: s := by
      rcases parts with _ | ⟨word', parts⟩
      · exact ⟨rest, rfl⟩
      · exact ⟨word' ++ (split parts ++ nul :: rest), by simp [split]⟩
    have hstart : front.length + 1 = (front ++ [nul]).length := by simp
    have hskip : front.length + 1 + word.length = (front ++ nul :: word).length := by
      simp only [List.length_append, List.length_cons]
      omega
    obtain ⟨s, hs⟩ := hend
    rw [pointers, List.map_cons]
    congr 1
    · have hnot : ∀ c ∈ word, decide (c ≠ nul) = true := fun c hc => decide_eq_true (fun hn => hword.2 (hn ▸ hc))
      unfold stringAt
      rw [hmem, hstart, List.drop_left, hs, List.takeWhile_append_of_pos hnot]
      simp
    · rw [hskip, hnext]
      exact ih hparts

/-! ## Splitting undoes joining -/

/-- What the loop leaves of up to eight parts. -/
theorem scan_parts {front : List Char} {parts : List (List Char)} (hlen : parts.length ≤ Rest.maxDepth) (h : Separate parts) :
    ∃ s, scan (front ++ (joined parts ++ [nul])) front.length (-1) (Rest.maxDepth + 1) noParts = .ok s ∧ s.i = parts.length - 1 ∧
      s.part = (pointers front.length parts).map some ++ List.replicate (Rest.maxDepth - parts.length) none ∧
      s.parts = parts.map some ++ List.replicate (Rest.maxDepth - parts.length) none := by
  have hscan := @scan_join (Rest.maxDepth + 1) (-1) noParts parts front [] h (Nat.lt_succ_of_le hlen) (Int.le_refl _)
    (by rw [noParts, List.length_replicate]; omega)
  have hstore : store noParts (-1 + 1 : Int).toNat (pointers front.length parts) = _ :=
    store_eq [] Rest.maxDepth (pointers front.length parts) (by rwa [length_pointers])
  have hstrings := @strings_eq parts front [] h
  rw [length_pointers, List.nil_append] at hstore
  refine ⟨_, hscan, by dsimp only; omega, hstore, ?_⟩
  have hsome : Option.map (stringAt (front ++ (split parts ++ [nul]))) ∘ some = some ∘ stringAt (front ++ (split parts ++ [nul])) := rfl
  unfold Scan.parts
  dsimp only
  rw [hstore, List.map_append, List.map_map, hsome, ← List.map_map, hstrings, List.map_replicate, Option.map_none]

/-! ## What the functions return -/

/-- What the daemon walks over: the URI, or what is behind its first six characters. -/
def walked (uri : List Char) : List Char := if uri.head? = some '/' then uri else uri.drop 6

theorem slashes_end (text : List Char) : slashes (text ++ [nul]) = slashes text := by
  induction text with
  | nil => rfl
  | cons c text ih => rw [List.cons_append, slashes_cons, slashes_cons, ih]

theorem head_copy (uri : List Char) : (uri ++ [nul]).head? = some '/' ↔ uri.head? = some '/' := by
  rcases uri with _ | ⟨c, uri⟩
  · decide
  · rfl

/-- What the daemon begins with. -/
theorem drop_copy {uri : List Char} (h : uri.head? = some '/' ∨ 6 ≤ uri.length) :
    (uri ++ [nul]).drop (if (uri ++ [nul]).head? = some '/' then 0 else 6) = walked uri ++ [nul] := by
  simp only [head_copy, walked]
  by_cases hslash : uri.head? = some '/'
  · rw [if_pos hslash, if_pos hslash, List.drop_zero]
  · rw [if_neg hslash, if_neg hslash, List.drop_append_of_le_length (h.resolve_left hslash)]

theorem scan_outside (h : mem.length ≤ p) : scan mem p i (depth + 1) part = .error .outOfBounds := by
  rw [scan, if_neg (Nat.succ_ne_zero depth)]
  split
  · rfl
  · rename_i c hc
    rw [List.getElem?_eq_none h] at hc
    cases hc

/-- What the daemon makes of what the loop leaves: the place of the last slash has to be in the array. -/
theorem demParseUri_of_scan {s : Scan}
    (hscan : scan (uri ++ [nul]) (if (uri ++ [nul]).head? = some '/' then 0 else 6) (-1) (Rest.maxDepth + 1) noParts = .ok s)
    (hlen : s.part.length = Rest.maxDepth) :
    (s.i < Rest.maxDepth ∧ ∃ n, demParseUri uri Rest.maxDepth noParts = .ok (n, s) ∧ n ≤ s.i + 1) ∨
      (Rest.maxDepth ≤ s.i ∧ demParseUri uri Rest.maxDepth noParts = .error .outOfBounds) := by
  unfold demParseUri
  dsimp only
  rw [hscan]
  show (_ ∧ ∃ n, (if 0 ≤ s.i then _ else _) = _ ∧ _) ∨ (_ ∧ (if 0 ≤ s.i then _ else _) = _)
  by_cases hfirst : 0 ≤ s.i
  · rw [if_pos hfirst]
    by_cases hlast : s.i < Rest.maxDepth
    · obtain ⟨ptr, hptr⟩ : ∃ ptr, s.part[s.i.toNat]? = some ptr := ⟨_, List.getElem?_eq_getElem (by omega)⟩
      rw [hptr]
      refine Or.inl ⟨hlast, _, rfl, ?_⟩
      split <;> omega
    · have hnone : s.part[s.i.toNat]? = none := List.getElem?_eq_none (by omega)
      rw [hnone]
      exact Or.inr ⟨by omega, rfl⟩
  · rw [if_neg hfirst]
    exact Or.inl ⟨by omega, s.i, rfl, by omega⟩

/-- Without the characters that it skips the daemon reads behind the URI. -/
theorem demParseUri_short (h : ¬(uri.head? = some '/' ∨ 6 ≤ uri.length)) :
    demParseUri uri Rest.maxDepth noParts = .error .outOfBounds := by
  rw [not_or] at h
  have hhead : ¬(uri ++ [nul]).head? = some '/' := (head_copy uri).not.mpr h.1
  unfold demParseUri
  dsimp only
  rw [if_neg hhead, scan_outside (by rw [List.length_append, List.length_singleton]; omega)]
  rfl

/-- What the loop leaves of any URI that has the characters that are skipped. -/
theorem scan_copy (h : uri.head? = some '/' ∨ 6 ≤ uri.length) :
    ∃ s, scan (uri ++ [nul]) (if (uri ++ [nul]).head? = some '/' then 0 else 6) (-1) (Rest.maxDepth + 1) noParts = .ok s ∧
      s.part.length = Rest.maxDepth ∧ s.i = -1 + min (Rest.maxDepth + 1) (slashes (walked uri)) := by
  have hscan := @scan_ok _ _ _ (Rest.maxDepth + 1) (-1) noParts (by decide) (by decide) (drop_copy h) (by simp)
  rwa [slashes_end] at hscan

/-! ## The parts that the requests of the model are looked up by -/

/-- A text is a word and some parts. -/
theorem exists_joined (text : List Char) : ∃ (word : List Char) (parts : List (List Char)), text = word ++ joined parts ∧
    '/' ∉ word ∧ ∀ part ∈ parts, '/' ∉ part := by
  induction text with
  | nil => exact ⟨[], [], rfl, List.not_mem_nil, fun _ h => absurd h List.not_mem_nil⟩
  | cons c text ih =>
    obtain ⟨word, parts, rfl, hword, hparts⟩ := ih
    by_cases hs : c = '/'
    · subst hs
      exact ⟨[], word :: parts, rfl, List.not_mem_nil, List.forall_mem_cons.mpr ⟨hword, hparts⟩⟩
    · exact ⟨c :: word, parts, rfl, by simp [hword, Ne.symm hs], hparts⟩

theorem intercalate_eq (word : List Char) (parts : List (List Char)) :
    ['/'].intercalate (word :: parts) = word ++ joined parts := by
  induction parts generalizing word with
  | nil => simp [joined, List.intercalate]
  | cons part parts ih =>
    rw [List.intercalate_cons_cons, ih part]
    simp [joined]

theorem splitOn_joined {word : List Char} {parts : List (List Char)} (hword : '/' ∉ word) (hparts : ∀ part ∈ parts, '/' ∉ part) :
    (word ++ joined parts).splitOn '/' = word :: parts := by
  rw [← intercalate_eq]
  exact List.splitOn_intercalate '/' (List.forall_mem_cons.mpr ⟨hword, hparts⟩) (List.cons_ne_nil word parts)

theorem slashes_joined {word : List Char} {parts : List (List Char)} (hword : '/' ∉ word) (hparts : ∀ part ∈ parts, '/' ∉ part)
    (hz : nul ∉ word ++ joined parts) : slashes (word ++ joined parts) = parts.length := by
  have hall : (word ++ joined parts).takeWhile (· ≠ nul) = word ++ joined parts :=
    List.takeWhile_eq_self_iff.mpr (fun c hc => decide_eq_true (fun hn => hz (hn ▸ hc)))
  unfold slashes
  rw [hall, List.count_append, List.count_eq_zero.mpr hword, Nat.zero_add]
  clear hz hall
  induction parts with
  | nil => rfl
  | cons part parts ih =>
    obtain ⟨hpart, hparts⟩ := List.forall_mem_cons.mp hparts
    show ('/' :: (part ++ joined parts)).count '/' = _
    rw [List.count_cons_self, List.count_append, List.count_eq_zero.mpr hpart, ih hparts, List.length_cons, Nat.zero_add]

theorem reduceOption_map_some {α : Type} (xs : List α) : (xs.map some).reduceOption = xs := by
  induction xs with
  | nil => rfl
  | cons x xs ih => rw [List.map_cons, List.reduceOption_cons_of_some, ih]

/-- The loop comes to the first slash. -/
theorem scan_walked {word : List Char} {parts : List (List Char)} (h : uri.head? = some '/' ∨ 6 ≤ uri.length)
    (htext : walked uri = word ++ joined parts) (hs : '/' ∉ word) (hz : nul ∉ word) :
    ∃ front : List Char, scan (uri ++ [nul]) (if (uri ++ [nul]).head? = some '/' then 0 else 6) (-1) (Rest.maxDepth + 1) noParts =
      scan (front ++ (joined parts ++ [nul])) front.length (-1) (Rest.maxDepth + 1) noParts := by
  obtain ⟨skip, huri, hskip⟩ : ∃ skip, uri = skip ++ walked uri ∧
      skip.length = if (uri ++ [nul]).head? = some '/' then 0 else 6 := by
    simp only [head_copy, walked]
    by_cases hslash : uri.head? = some '/'
    · exact ⟨[], by rw [if_pos hslash]; rfl, by rw [if_pos hslash]; rfl⟩
    · refine ⟨uri.take 6, by rw [if_neg hslash, List.take_append_drop], ?_⟩
      rw [if_neg hslash, List.length_take, Nat.min_eq_left (h.resolve_left hslash)]
  have hcopy : uri ++ [nul] = skip ++ (word ++ (joined parts ++ [nul])) := by
    conv_lhs => rw [huri, htext]
    simp only [List.append_assoc]
  refine ⟨skip ++ word, ?_⟩
  rw [← hskip, hcopy, scan_skip hs hz (Nat.succ_ne_zero _), List.append_assoc, List.length_append]

/-- The split in place stores the parts of the model, and goes wrong where the model does. -/
theorem rest_parseUri_eq (uri : String) (hz : nul ∉ uri.toList) :
    Rest.parseUri uri =
      (demParseUri uri.toList Rest.maxDepth noParts).map (fun r => r.2.parts.reduceOption.map String.ofList) := by
  unfold Rest.parseUri
  dsimp only
  by_cases hstart : uri.toList.head? = some '/' ∨ 6 ≤ uri.toList.length
  · have hshort : ¬(uri.toList.head? ≠ some '/' ∧ uri.toList.length < 6) := by
      rintro ⟨hhead, hlen⟩
      exact hstart.elim hhead (fun h => absurd hlen (Nat.not_lt.mpr h))
    rw [if_neg hshort]
    have hwalked : (if uri.toList.head? = some '/' then uri.toList else uri.toList.drop 6) = walked uri.toList := rfl
    obtain ⟨word, parts, htext, hword, hparts⟩ := exists_joined (walked uri.toList)
    have hmem : ∀ c ∈ walked uri.toList, c ∈ uri.toList := by
      intro c hc
      unfold walked at hc
      split at hc
      · exact hc
      · exact List.mem_of_mem_drop hc
    have hztext : nul ∉ word ++ joined parts := fun h => hz (hmem nul (htext ▸ h))
    obtain ⟨s, hscan, hlen, hlast⟩ := scan_copy hstart
    rw [htext, slashes_joined hword hparts hztext] at hlast
    rw [hwalked, htext, splitOn_joined hword hparts, List.drop_one, List.tail_cons, List.length_map]
    have hmax : Rest.maxDepth = 8 := rfl
    by_cases hcount : parts.length ≤ Rest.maxDepth
    · rw [if_pos hcount]
      rcases demParseUri_of_scan hscan hlen with ⟨-, n, h, -⟩ | ⟨hge, -⟩
      · have hs : s.parts = parts.map some ++ List.replicate (Rest.maxDepth - parts.length) none := by
          obtain ⟨front, hfront⟩ := scan_walked hstart htext hword (fun hn => hztext (List.mem_append_left _ hn))
          have hseparate : Separate parts := fun part hpart => ⟨hparts part hpart, fun hn =>
            hztext (List.mem_append_right _ (List.mem_flatMap.mpr ⟨part, hpart, List.mem_cons_of_mem '/' hn⟩))⟩
          obtain ⟨s', hscan', -, -, hs'⟩ := @scan_parts front parts hcount hseparate
          rw [hfront, hscan'] at hscan
          rwa [← Except.ok.inj hscan]
        rw [h]
        show Except.ok (parts.map String.ofList) = .ok (s.parts.reduceOption.map String.ofList)
        rw [hs, List.reduceOption_append, List.reduceOption_replicate_none, List.append_nil, reduceOption_map_some]
      · omega
    · rw [if_neg hcount]
      rcases demParseUri_of_scan hscan hlen with ⟨hlt, -⟩ | ⟨-, h⟩
      · omega
      · rw [h]
        rfl
  · rw [not_or] at hstart
    rw [if_pos ⟨hstart.1, Nat.lt_of_not_le hstart.2⟩, demParseUri_short (not_or.mpr hstart)]
    rfl

/-! ## A URI with nine slashes -/

def deepUri : List Char := "/target/t/a/b/c/d/e/f/g".toList

/-- The ninth slash makes the daemon look behind the array. -/
theorem deepUri_outside : demParseUri deepUri Rest.maxDepth noParts = .error .outOfBounds := by
  obtain ⟨s, hscan, hlen, hlast⟩ := scan_copy (show deepUri.head? = some '/' ∨ 6 ≤ deepUri.length from Or.inl rfl)
  have hcount : slashes (walked deepUri) = 9 := by decide
  have hmax : Rest.maxDepth = 8 := rfl
  rw [hcount] at hlast
  rcases demParseUri_of_scan hscan hlen with ⟨hlt, -⟩ | ⟨-, h⟩
  · omega
  · exact h

/-- The daemon stays inside the URI and the array, and counts no more parts than the array has, exactly when it has as many characters to
skip as it skips and comes to no more slashes than the array has places. -/
theorem parseUri_safe_iff (uri : List Char) :
    (∃ n s, demParseUri uri Rest.maxDepth noParts = .ok (n, s) ∧ n ≤ Rest.maxDepth) ↔
      (uri.head? = some '/' ∨ 6 ≤ uri.length) ∧ slashes (walked uri) ≤ Rest.maxDepth := by
  by_cases hstart : uri.head? = some '/' ∨ 6 ≤ uri.length
  · obtain ⟨s, hscan, hlen, hlast⟩ := scan_copy hstart
    rw [and_iff_right hstart]
    rcases demParseUri_of_scan hscan hlen with ⟨hlt, n, h, hn⟩ | ⟨hge, h⟩
    · exact iff_of_true ⟨n, s, h, by omega⟩ (by omega)
    · refine iff_of_false ?_ (by omega)
      rintro ⟨n, s', hok, -⟩
      rw [h] at hok
      cases hok
  · refine iff_of_false ?_ (fun h => hstart h.1)
    rintro ⟨n, s, h, -⟩
    rw [demParseUri_short hstart] at h
    cases h

/-- Splitting undoes joining, for the daemon and for an endpoint. -/
theorem parseUri_join (parts : List (List Char)) (hne : parts ≠ []) (hlen : parts.length ≤ Rest.maxDepth)
    (h : ∀ part ∈ parts, '/' ∉ part ∧ nul ∉ part) :
    ∃ s : Scan, demParseUri (joined parts) Rest.maxDepth noParts = .ok (parts.length, s) ∧
      endpointParseUri (joined parts) Rest.maxDepth noParts = .ok (parts.length - 1, s) ∧
      s.parts = parts.map some ++ List.replicate (Rest.maxDepth - parts.length) none := by
  obtain ⟨s, hscan, hlast, hpart, hparts⟩ := @scan_parts [] parts hlen h
  rw [List.nil_append, List.length_nil] at hscan
  have hpos : 0 < parts.length := List.length_pos_iff.mpr hne
  have hslash : (joined parts ++ [nul]).head? = some '/' := by
    rcases parts with _ | ⟨part, parts⟩
    · exact absurd rfl hne
    · rfl
  have hptr : ∃ p, s.part[s.i.toNat]? = some (some p) := by
    have hindex : s.i.toNat < ((pointers ([] : List Char).length parts).map some).length := by
      rw [List.length_map, length_pointers]
      omega
    rw [hpart, List.getElem?_append_left hindex, List.getElem?_map]
    have hlt : s.i.toNat < (pointers ([] : List Char).length parts).length := by rwa [List.length_map] at hindex
    exact ⟨_, by rw [List.getElem?_eq_getElem hlt]; rfl⟩
  obtain ⟨p, hp⟩ := hptr
  refine ⟨s, ?_, ?_, hparts⟩
  · unfold demParseUri
    dsimp only
    rw [if_pos hslash, hscan]
    show (if 0 ≤ s.i then _ else _) = _
    rw [if_pos (by omega), hp]
    show Except.ok (s.i + 1, s) = _
    rw [hlast]
    simp
  · unfold endpointParseUri
    rw [hscan]
    show Except.ok (s.i, s) = _
    rw [hlast]

theorem twoParts_split : ∃ s : Scan,
    demParseUri (joined [['a'], ['b']]) Rest.maxDepth noParts = .ok ((2 : Nat), s) ∧
      endpointParseUri (joined [['a'], ['b']]) Rest.maxDepth noParts = .ok ((2 : Nat) - 1, s) ∧
      s.parts = [some ['a'], some ['b']] ++ List.replicate (Rest.maxDepth - 2) none :=
  parseUri_join [['a'], ['b']] (List.cons_ne_nil _ _) (by decide) (by decide)

end NvmeDem.UriScan
