import Mathlib.Data.List.ReduceOption
import NvmeDem.Dem.AddrWrites

/-!
# The address parser keeps to its memory

The characters of a number are in the front of the buffer and the numbers that were read are in the front of the array. A number that gets
longer than the buffer is written past its end, since its width is only looked at when it ends. Every other text is parsed within bounds.
-/

namespace NvmeDem.AddrWrites

/-! ## Cells -/

/-- An array of which the front is written. -/
def front {α : Type} (len : Nat) (xs : List α) : List (Option α) := xs.map some ++ List.replicate (len - xs.length) none

theorem put_front {α : Type} {len : Nat} {xs : List α} (h : xs.length < len) (x : α) :
    put (front len xs) xs.length x = .ok (front len (xs ++ [x])) := by
  obtain ⟨more, hmore⟩ := Nat.exists_eq_add_of_lt h
  have hset : (front len xs).set xs.length (some x) = front len (xs ++ [x]) := by
    have hlen : len - xs.length = more + 1 := by omega
    have hlen' : len - (xs ++ [x]).length = more := by simp; omega
    rw [front, front, hlen, hlen', List.set_append_right _ _ (by simp)]
    simp [List.replicate_succ]
  have hsize : xs.length < (front len xs).length := by simp [front]; omega
  rw [put, if_pos hsize, hset]

/-- The front of a buffer of which the rest holds anything. -/
def Holds {α : Type} (cells : List (Option α)) (xs : List α) : Prop := ∃ rest, cells = xs.map some ++ rest

theorem put_holds {α : Type} {cells : List (Option α)} {xs : List α} (h : Holds cells xs) (hlen : xs.length < cells.length) (x : α) :
    ∃ cells', put cells xs.length x = .ok cells' ∧ Holds cells' (xs ++ [x]) ∧ cells'.length = cells.length := by
  refine ⟨cells.set xs.length (some x), ?_, ?_, ?_⟩
  · rw [put, if_pos hlen]
  · obtain ⟨rest, rfl⟩ := h
    cases rest with
    | nil => simp at hlen
    | cons cell rest => exact ⟨rest, by simp⟩
  · exact List.length_set

theorem textOf_holds {text : List Char} (hnul : '\x00' ∉ text) : ∀ {cells : List (Option Char)}, Holds cells (text ++ ['\x00']) →
    textOf cells = .ok text := by
  induction text with
  | nil =>
    rintro _ ⟨rest, rfl⟩
    simp [textOf]
  | cons c text ih =>
    rintro _ ⟨rest, rfl⟩
    rw [List.mem_cons, not_or] at hnul
    have hrest := ih hnul.2 ⟨rest, rfl⟩
    simp only [List.cons_append, List.map_cons, textOf, hrest]
    rw [if_neg (Ne.symm hnul.1)]
    rfl

/-! ## The parser and its writes -/

/-- The parser without its cells: what it returns, the numbers that were read and the text. -/
def erase (out : AddrMem) : AddrOut :=
  let ret := match out.ret with
    | .tooWide => -1
    | .done ret => ret
  { ret := ret, addr := out.addr.reduceOption, text := out.text }

/-- The parser does what it does without cells, and has written all numbers where none was too wide. -/
def Refines (len : Nat) (r : Except Fault AddrMem) (o : Except Fault AddrOut) : Prop :=
  r.map erase = o ∧ ∀ out, r = .ok out → out.addr.length = len ∧ (out.ret ≠ .tooWide → none ∉ out.addr)

theorem reduceOption_map_some (xs : List Int) : (xs.map some).reduceOption = xs := by
  simp [List.reduceOption, List.filterMap_map]

theorem reduceOption_front (len : Nat) (xs : List Int) : (front len xs).reduceOption = xs := by
  rw [front, List.reduceOption_append, List.reduceOption_replicate_none, List.append_nil, reduceOption_map_some]

theorem length_front {len : Nat} {xs : List Int} (h : xs.length ≤ len) : (front len xs).length = len := by
  simp [front]
  omega

theorem endNumber_eq {len width : Nat} {nibble : List (Option Char)} {piece : List Char} {nums : List Int} (hholds : Holds nibble piece)
    (hnul : '\x00' ∉ piece) (hwidth : width < nibble.length) (hlen : nums.length < len) :
    if width < piece.length then endNumber width nibble piece.length nums.length (front len nums) = .ok none
    else ∃ nibble', nibble'.length = nibble.length ∧
      endNumber width nibble piece.length nums.length (front len nums) = .ok (some (nibble', front len (nums ++ [atoi piece]))) := by
  have hput := put_front hlen (atoi piece)
  cases hpiece : piece with
  | nil =>
    rw [hpiece] at hput
    have hzero : atoi [] = 0 := by decide
    rw [List.length_nil, if_neg (Nat.not_lt_zero width)]
    refine ⟨nibble, rfl, ?_⟩
    rw [hzero] at hput
    rw [endNumber, if_neg (not_not_intro rfl), hput, hzero]
    rfl
  | cons c cs =>
    rw [← hpiece]
    have hne : piece.length ≠ 0 := by simp [hpiece]
    rw [endNumber, if_pos hne]
    split
    · rfl
    · obtain ⟨nibble', hnibble, hholds', hsize⟩ := put_holds hholds (by omega) '\x00'
      refine ⟨nibble', hsize, ?_⟩
      rw [hnibble]
      simp only [bind, Except.bind, textOf_holds hnul hholds', hput]
      rfl

theorem padZeros_eq (len : Nat) (turns : Nat) : ∀ nums : List Int, nums.length + turns = len →
    padZeros turns nums.length (front len nums) = .ok ((padAddr len nums).map some) := by
  induction turns with
  | zero =>
    intro nums hlen
    have hfull : len - nums.length = 0 := by omega
    simp [padZeros, front, padAddr, hfull]
  | succ turns ih =>
    intro nums hlen
    have hrest := ih (nums ++ [0]) (by simp; omega)
    have hpad : padAddr len (nums ++ [0]) = padAddr len nums := by
      obtain ⟨more, rfl⟩ := Nat.exists_eq_add_of_le (Nat.le.intro hlen)
      have hmore : more = turns + 1 := by omega
      have hless : nums.length + more - (nums ++ [0]).length = turns := by simp; omega
      rw [padAddr, padAddr, hless, Nat.add_sub_cancel_left, hmore, List.replicate_succ, List.append_assoc, List.singleton_append]
    rw [padZeros, put_front (by omega)]
    rw [List.length_append, List.length_singleton, hpad] at hrest
    exact hrest

/-- What is behind the loop writes the numbers that the text did not have. -/
theorem afterLoop_eq {len : Nat} {nums : List Int} (hlen : nums.length ≤ len) (seen rest : List Char) :
    afterLoop len nums.length seen rest (front len nums) =
      .ok (if rest.head? = some '/' then { ret := .done (atoi rest.tail), addr := (padAddr len nums).map some, text := seen }
        else { ret := .done 0, addr := (padAddr len nums).map some, text := seen ++ rest }) := by
  rw [afterLoop, padZeros_eq len (len - nums.length) nums (by omega)]
  simp only [bind, Except.bind]
  split <;> rfl

theorem padAddr_full {len : Nat} {nums : List Int} (hlen : len ≤ nums.length) : padAddr len nums = nums := by
  rw [padAddr, Nat.sub_eq_zero_of_le hlen, List.replicate_zero, List.append_nil]

theorem refines_done {len : Nat} {nums : List Int} (hlen : nums.length ≤ len) (ret : Int) (text : List Char) :
    Refines len (.ok { ret := .done ret, addr := (padAddr len nums).map some, text := text })
      (.ok { ret := ret, addr := padAddr len nums, text := text }) := by
  refine ⟨?_, ?_⟩
  · simp [Except.map, erase, reduceOption_map_some]
  · rintro out hout
    rw [← Except.ok.inj hout]
    refine ⟨?_, ?_⟩
    · simp [padAddr]
      omega
    · simp

theorem refines_tooWide {len : Nat} {nums : List Int} (hlen : nums.length ≤ len) (text : List Char) :
    Refines len (.ok { ret := .tooWide, addr := front len nums, text := text }) (.ok { ret := -1, addr := nums, text := text }) := by
  refine ⟨?_, ?_⟩
  · simp [Except.map, erase, reduceOption_front]
  · rintro out hout
    rw [← Except.ok.inj hout]
    exact ⟨length_front hlen, fun hne => absurd rfl hne⟩

theorem refines_fault (len : Nat) : Refines len (.error .outOfBounds) (.error .outOfBounds) := by
  refine ⟨rfl, ?_⟩
  intro out hout
  cases hout

/-- What is behind the loop, in both of them. -/
theorem refines_afterLoop {len : Nat} {nums : List Int} (hlen : nums.length ≤ len) (seen rest : List Char) :
    Refines len (afterLoop len nums.length seen rest (front len nums))
      (.ok (if rest.head? = some '/' then { ret := atoi rest.tail, addr := padAddr len nums, text := seen }
        else { ret := 0, addr := padAddr len nums, text := seen ++ rest })) := by
  rw [afterLoop_eq hlen]
  by_cases hslash : rest.head? = some '/'
  · rw [if_pos hslash, if_pos hslash]
    exact refines_done hlen _ _
  · rw [if_neg hslash, if_neg hslash]
    exact refines_done hlen _ _

/-- After the last number there is no place for another. -/
theorem refines_full {len : Nat} {nums : List Int} (hlen : nums.length ≤ len) (hfull : ¬nums.length < len) (seen rest : List Char) :
    Refines len (afterLoop len nums.length seen rest (front len nums))
      (.ok (if rest.head? = some '/' then { ret := atoi rest.tail, addr := nums, text := seen }
        else { ret := 0, addr := nums, text := seen ++ rest })) := by
  have hafter := refines_afterLoop hlen seen rest
  rwa [padAddr_full (Nat.not_lt.mp hfull)] at hafter

/-- One number in both of them. A buffer that would overflow is a fault in both. -/
theorem refines_addrLoop (len width : Nat) (delim : Char) (hwidth : width < nibbleSize) (rest : List Char) :
    ∀ (seen : List Char) (nibble : List (Option Char)) (piece : List Char) (nums : List Int), nibble.length = nibbleSize →
      Holds nibble piece → '\x00' ∉ piece → '\x00' ∉ rest → nums.length ≤ len →
      Refines len (addrLoop len width delim seen rest nibble piece.length nums.length (front len nums))
        (stringToAddrLoop len width delim seen rest piece nums) := by
  induction rest with
  | nil =>
    intro seen nibble piece nums hsize hholds hpiece _ hlen
    rw [addrLoop, stringToAddrLoop]
    by_cases hmore : nums.length < len
    · rw [if_pos hmore, if_pos hmore]
      have hend := endNumber_eq hholds hpiece (hsize ▸ hwidth) hmore
      have hlen' : (nums ++ [atoi piece]).length ≤ len := by simp; omega
      by_cases hwide : width < piece.length
      · rw [if_pos hwide] at hend ⊢
        rw [hend]
        exact refines_tooWide hlen seen
      · rw [if_neg hwide] at hend ⊢
        obtain ⟨nibble', -, hend⟩ := hend
        have hafter := refines_afterLoop hlen' seen []
        rw [List.length_append, List.length_singleton, List.append_nil] at hafter
        simp only [hend, bind, Except.bind]
        exact hafter
    · rw [if_neg hmore, if_neg hmore]
      have hafter := refines_full hlen hmore seen []
      rwa [List.append_nil] at hafter
  | cons c rest ih =>
    intro seen nibble piece nums hsize hholds hpiece hrest hlen
    obtain ⟨hc, hrest⟩ := not_or.mp (fun h => hrest (List.mem_cons.mpr h))
    rw [addrLoop, stringToAddrLoop]
    by_cases hmore : nums.length < len
    · rw [if_pos hmore, if_pos hmore]
      by_cases hends : c = delim ∨ c = '/'
      · rw [if_pos hends, if_pos hends]
        have hend := endNumber_eq hholds hpiece (hsize ▸ hwidth) hmore
        have hlen' : (nums ++ [atoi piece]).length ≤ len := by simp; omega
        by_cases hwide : width < piece.length
        · rw [if_pos hwide] at hend ⊢
          rw [hend]
          exact refines_tooWide hlen _
        · rw [if_neg hwide] at hend ⊢
          obtain ⟨nibble', hsize', hend⟩ := hend
          simp only [hend, bind, Except.bind]
          by_cases hslash : c = '/'
          · have hafter := refines_afterLoop hlen' seen (c :: rest)
            rw [List.length_append, List.length_singleton, List.head?_cons, if_pos (congrArg some hslash)] at hafter
            rw [if_pos hslash, if_pos hslash]
            exact hafter
          · rw [if_neg hslash, if_neg hslash]
            have hnext := ih (seen ++ [c]) nibble' [] (nums ++ [atoi piece]) (hsize'.trans hsize) ⟨nibble', rfl⟩ List.not_mem_nil
              hrest hlen'
            rwa [List.length_append, List.length_singleton] at hnext
      · rw [if_neg hends, if_neg hends]
        by_cases hroom : piece.length < nibbleSize
        · obtain ⟨nibble', hput, hholds', hsize'⟩ := put_holds hholds (hsize ▸ hroom) c
          have hpiece' : '\x00' ∉ piece ++ [c] := by simp [hpiece, hc]
          have hnext := ih (seen ++ [c]) nibble' (piece ++ [c]) nums (hsize'.trans hsize) hholds' hpiece' hrest hlen
          rw [List.length_append, List.length_singleton] at hnext
          rw [if_pos hroom, hput]
          exact hnext
        · have hput : put nibble piece.length c = .error .outOfBounds := by rw [put, if_neg (hsize ▸ hroom)]
          rw [if_neg hroom, hput]
          exact refines_fault len
    · rw [if_neg hmore, if_neg hmore]
      have hafter := refines_full hlen hmore seen (c :: rest)
      simp only [List.head?_cons, Option.some.injEq] at hafter
      by_cases hslash : c = '/'
      · rw [if_pos hslash] at hafter ⊢
        exact hafter
      · rw [if_neg hslash] at hafter ⊢
        exact hafter

/-- The parser on cells is the parser, for every text and all formats. -/
theorem refines_stringToAddr (p : CText) (len width : Nat) (delim : Char) (hwidth : width < nibbleSize) :
    Refines len (stringToAddr p len width delim) (NvmeDem.stringToAddr (String.ofList p.val) len width delim) := by
  have hrun := refines_addrLoop len width delim hwidth p.val [] (List.replicate nibbleSize none) [] [] List.length_replicate ⟨_, rfl⟩
    List.not_mem_nil p.property (Nat.zero_le len)
  rw [stringToAddr, NvmeDem.stringToAddr, String.toList_ofList]
  exact hrun

/-! ## The numbers that fit -/

/-- The text of an address in front of its slash. -/
def inFront (text : List Char) : List Char := text.takeWhile (fun c => c ≠ '/')

/-- Of the first numbers of a text the one that is too wide, if there is one, fits into the buffer. -/
def FirstWideFits (len width : Nat) (delim : Char) (text : List Char) : Prop :=
  ∀ part, ((text.splitOn delim).take len).find? (fun part => width < part.length) = some part → part.length ≤ nibbleSize

/-- The first number of a text has what is in front of its first delimiter. -/
theorem splitOn_head {delim : Char} {piece : List Char} (hpiece : delim ∉ piece) (rest : List Char) :
    ∃ more parts, (piece ++ rest).splitOn delim = (piece ++ more) :: parts := by
  by_cases hmem : delim ∈ rest
  · obtain ⟨more, tail, rfl, hmore⟩ := List.eq_append_cons_of_mem hmem
    refine ⟨more, tail.splitOn delim, ?_⟩
    rw [← List.append_assoc]
    exact List.splitOn_append_cons_self_of_not_mem (fun h => (List.mem_append.mp h).elim hpiece hmore) tail
  · refine ⟨rest, [], ?_⟩
    exact List.splitOn_eq_singleton (fun h => (List.mem_append.mp h).elim hpiece hmem)

/-- A last number of a text. -/
theorem fits_last {len width : Nat} {delim : Char} {piece : List Char} (hpiece : delim ∉ piece) (hlen : piece.length ≤ nibbleSize) :
    FirstWideFits len width delim piece := by
  intro part hpart
  rw [List.splitOn_eq_singleton hpiece] at hpart
  have hmem := List.mem_of_mem_take (List.mem_of_find?_eq_some hpart)
  rwa [List.mem_singleton.mp hmem]

/-- A number that ends at a delimiter. -/
theorem fits_delim {len width : Nat} {delim : Char} {piece : List Char} (hpiece : delim ∉ piece) (hlen : piece.length ≤ nibbleSize)
    (rest : List Char) : FirstWideFits (len + 1) width delim (piece ++ delim :: rest) ↔
      width < piece.length ∨ FirstWideFits len width delim rest := by
  rw [FirstWideFits, List.splitOn_append_cons_self_of_not_mem hpiece, List.take_succ_cons]
  by_cases hwide : width < piece.length
  · rw [List.find?_cons_of_pos (by simpa using hwide)]
    refine iff_of_true ?_ (.inl hwide)
    intro part hpart
    rwa [← Option.some.inj hpart]
  · rw [List.find?_cons_of_neg (by simpa using hwide)]
    exact ⟨.inr, fun h => h.resolve_left hwide⟩

/-- A number that does not fit. -/
theorem not_fits {len width : Nat} {delim c : Char} {piece : List Char} (hpiece : delim ∉ piece) (hc : c ≠ delim)
    (hwidth : width < nibbleSize) (hfull : ¬piece.length < nibbleSize) (rest : List Char) :
    ¬FirstWideFits (len + 1) width delim (piece ++ c :: rest) := by
  have hmore : delim ∉ piece ++ [c] := by simp [hpiece, hc.symm]
  obtain ⟨more, parts, hsplit⟩ := splitOn_head hmore rest
  rw [List.append_assoc, List.singleton_append] at hsplit
  have hwide : nibbleSize < (piece ++ [c] ++ more).length := by simp; omega
  intro hfits
  rw [FirstWideFits, hsplit, List.take_succ_cons, List.find?_cons_of_pos (by simpa using Nat.lt_trans hwidth hwide)] at hfits
  exact absurd (hfits _ rfl) (Nat.not_le.mpr hwide)

theorem inFront_slash (rest : List Char) : inFront ('/' :: rest) = [] := rfl

theorem inFront_cons {c : Char} (hc : c ≠ '/') (rest : List Char) : inFront (c :: rest) = c :: inFront rest := by
  simp [inFront, hc]

/-- The parser returns from a text if and only if the numbers in it that it comes to fit. -/
theorem returns_iff {len width : Nat} {delim : Char} (hwidth : width < nibbleSize) (rest : List Char) :
    ∀ (seen piece : List Char) (nums : List Int), delim ∉ piece → piece.length ≤ nibbleSize →
      ((∃ out, stringToAddrLoop len width delim seen rest piece nums = .ok out) ↔
        FirstWideFits (len - nums.length) width delim (piece ++ inFront rest)) := by
  induction rest with
  | nil =>
    intro seen piece nums hpiece hlen
    have hfits : FirstWideFits (len - nums.length) width delim (piece ++ inFront []) := by
      rw [inFront, List.takeWhile_nil, List.append_nil]
      exact fits_last hpiece hlen
    refine iff_of_true ?_ hfits
    rw [stringToAddrLoop]
    split
    · split
      · exact ⟨_, rfl⟩
      · exact ⟨_, rfl⟩
    · exact ⟨_, rfl⟩
  | cons c rest ih =>
    intro seen piece nums hpiece hlen
    rw [stringToAddrLoop]
    by_cases hmore : nums.length < len
    · obtain ⟨left, hleft⟩ : ∃ left, len - nums.length = left + 1 := ⟨len - nums.length - 1, by omega⟩
      rw [if_pos hmore, hleft]
      by_cases hslash : c = '/'
      · subst hslash
        rw [if_pos (.inr rfl), inFront_slash, List.append_nil]
        refine iff_of_true ?_ (fits_last hpiece hlen)
        split
        · exact ⟨_, rfl⟩
        · exact ⟨_, rfl⟩
      · rw [inFront_cons hslash]
        by_cases hdelim : c = delim
        · subst hdelim
          rw [if_pos (.inl rfl), fits_delim hpiece hlen]
          by_cases hwide : width < piece.length
          · rw [if_pos hwide]
            exact iff_of_true ⟨_, rfl⟩ (.inl hwide)
          · have hnext := ih (seen ++ [c]) [] (nums ++ [atoi piece]) List.not_mem_nil (Nat.zero_le _)
            have hleft' : len - (nums ++ [atoi piece]).length = left := by simp; omega
            rw [if_neg hwide, if_neg hslash, hnext, hleft', List.nil_append]
            exact ⟨.inr, fun h => h.resolve_left hwide⟩
        · rw [if_neg (not_or.mpr ⟨hdelim, hslash⟩)]
          by_cases hroom : piece.length < nibbleSize
          · have hpiece' : delim ∉ piece ++ [c] := by simp [hpiece, Ne.symm hdelim]
            have hnext := ih (seen ++ [c]) (piece ++ [c]) nums hpiece' (by simp; omega)
            rw [if_pos hroom, hnext, hleft, List.append_assoc, List.singleton_append]
          · rw [if_neg hroom]
            refine iff_of_false ?_ (not_fits hpiece hdelim hwidth hroom (inFront rest))
            rintro ⟨out, hout⟩
            cases hout
    · have hnone : len - nums.length = 0 := by omega
      rw [if_neg hmore, hnone]
      refine iff_of_true ?_ ?_
      · split
        · exact ⟨_, rfl⟩
        · exact ⟨_, rfl⟩
      · intro part hpart
        simp at hpart

/-! ## The formats -/

theorem Format.width_lt (format : Format) : format.width < nibbleSize := by
  cases format <;> decide

/-- The functions of the formats are those of the parser without cells. -/
theorem refines_toAddr (p : CText) (format : Format) :
    Refines format.len (toAddr format p) (NvmeDem.stringToAddr (String.ofList p.val) format.len format.width format.delim) :=
  refines_stringToAddr p format.len format.width format.delim format.width_lt

/-- The parser keeps to its memory, and has written all numbers where it returns zero or a prefix length. -/
def Keeps (len : Nat) (r : Except Fault AddrMem) : Prop :=
  ∃ out, r = .ok out ∧ out.addr.length = len ∧ (out.ret ≠ .tooWide → none ∉ out.addr)

theorem Refines.keeps_iff {len : Nat} {r : Except Fault AddrMem} {o : Except Fault AddrOut} (h : Refines len r o) :
    Keeps len r ↔ ∃ out, o = .ok out := by
  obtain ⟨rfl, hok⟩ := h
  cases r with
  | error fault =>
    refine iff_of_false ?_ ?_
    · rintro ⟨out, hout, -⟩
      cases hout
    · rintro ⟨out, hout⟩
      cases hout
  | ok out => exact iff_of_true ⟨out, rfl, hok out rfl⟩ ⟨erase out, rfl⟩

/-- The parser keeps to its memory if and only if, of the numbers it may come to, the first that is too wide fits into the buffer. -/
theorem keeps_toAddr_iff (format : Format) (p : CText) :
    Keeps format.len (toAddr format p) ↔ FirstWideFits format.len format.width format.delim (inFront p.val) := by
  rw [(refines_toAddr p format).keeps_iff, NvmeDem.stringToAddr, String.toList_ofList,
    returns_iff format.width_lt p.val [] [] [] List.not_mem_nil (Nat.zero_le _)]
  rfl

/-- A number of nine digits is written past the end of the buffer. -/
theorem not_keeps_nine_digits : ¬∀ (format : Format) (p : CText), Keeps format.len (toAddr format p) := by
  intro h
  obtain ⟨out, hout, -⟩ := h .ipv4 ⟨"123456789".toList, by decide⟩
  have hfault : toAddr .ipv4 ⟨"123456789".toList, by decide⟩ = .error .outOfBounds := by decide +kernel
  rw [hfault] at hout
  cases hout

end NvmeDem.AddrWrites
