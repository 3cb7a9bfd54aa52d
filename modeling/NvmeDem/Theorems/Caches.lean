import NvmeDem.Ac.Updates

/-!
# A client's cache is the last log

A log that was fetched replaces what a client kept. The keys of the pages that are kept are then those of the log, each once,
and no subsystem is kept without a page.

For the connecting client this needs memory for what is new (`Stored`) and a directory whose texts can be read (`legible`). The
monitor reads no directory, but it needs memory for a header where a subsystem has lost its last page: its own cleanup leaves
the subsystem there.
-/

namespace NvmeDem

/-! ## What is kept once -/

structure UniqueKeys (cache : List AcSubsystem) : Prop where
  names : (cache.map AcSubsystem.nqn).Nodup
  keys : ∀ subsys ∈ cache, subsys.keys.Nodup

/-- The cache is the log: the same keys, each once, and no subsystem without pages. -/
structure Follows (log : List LogEntry) (cache : List AcSubsystem) : Prop where
  keys : ∀ key, key ∈ cachedKeys cache ↔ key ∈ log.map LogEntry.key
  unique : UniqueKeys cache
  pages : ∀ subsys ∈ cache, subsys.logpageList ≠ []

theorem keyFor_eq_iff {page : AcLogpage} {e : LogEntry} {nqn : String} :
    page.e.keyFor nqn = e.keyFor nqn ↔ matchLogpage page e = true := by
  constructor
  · intro h
    simp only [LogEntry.keyFor, PageKey.mk.injEq, true_and] at h
    obtain ⟨h1, h2, h3, h4⟩ := h
    simp [matchLogpage, h1, h2, h3, h4]
  · intro h
    exact key_of_match h nqn

/-- The keys of a subsystem after an entry was saved there. -/
theorem keys_savePage (e : LogEntry) (nqn : String) (pages : List AcLogpage) :
    (savePage e pages).map (fun page => page.e.keyFor nqn) =
      if pages.any (fun page => matchLogpage page e) then pages.map (fun page => page.e.keyFor nqn)
      else pages.map (fun page => page.e.keyFor nqn) ++ [e.keyFor nqn] := by
  induction pages with
  | nil => rfl
  | cons page pages ih =>
    unfold savePage
    by_cases hm : matchLogpage page e = true
    · simp [hm]
    · rw [if_neg hm, List.map_cons, ih]
      simp only [Bool.not_eq_true] at hm
      by_cases hany : pages.any (fun page => matchLogpage page e) = true
      · simp [hm, hany]
      · simp only [Bool.not_eq_true] at hany
        simp [hm, hany]

theorem any_match_iff (e : LogEntry) (nqn : String) (pages : List AcLogpage) :
    pages.any (fun page => matchLogpage page e) = true ↔ e.keyFor nqn ∈ pages.map (fun page => page.e.keyFor nqn) := by
  simp only [List.any_eq_true, List.mem_map, keyFor_eq_iff]

theorem nodup_savePage (e : LogEntry) (nqn : String) {pages : List AcLogpage}
    (h : (pages.map (fun page => page.e.keyFor nqn)).Nodup) :
    ((savePage e pages).map (fun page => page.e.keyFor nqn)).Nodup := by
  rw [keys_savePage]
  split
  · exact h
  · rename_i hany
    rw [any_match_iff e nqn] at hany
    exact List.nodup_append.mpr ⟨h, List.nodup_singleton _, fun a ha b hb hab => hany (List.mem_singleton.mp hb ▸ hab ▸ ha)⟩

/-- The names after an entry was saved: its own is added behind them if it is new. -/
theorem names_saveLogPage (e : LogEntry) (cache : List AcSubsystem) :
    (saveLogPage e cache).map AcSubsystem.nqn =
      if e.subnqn ∈ cache.map AcSubsystem.nqn then cache.map AcSubsystem.nqn
      else cache.map AcSubsystem.nqn ++ [e.subnqn] := by
  induction cache with
  | nil => rfl
  | cons subsys cache ih =>
    unfold saveLogPage
    by_cases hn : subsys.nqn = e.subnqn
    · simp [hn]
    · rw [if_neg hn, List.map_cons, ih, List.map_cons]
      by_cases hm : e.subnqn ∈ cache.map AcSubsystem.nqn
      · simp [hm]
      · rw [if_neg hm, if_neg (by simpa [hm] using Ne.symm hn), List.cons_append]

/-- A subsystem after an entry was saved is one from before, or the one that was given the page. -/
theorem mem_saveLogPage {e : LogEntry} {cache : List AcSubsystem} {subsys : AcSubsystem} (h : subsys ∈ saveLogPage e cache) :
    subsys ∈ cache ∨ ∃ pages : List AcLogpage, subsys = { nqn := e.subnqn, logpageList := savePage e pages } ∧
      (pages = [] ∨ { nqn := e.subnqn, logpageList := pages } ∈ cache) := by
  induction cache with
  | nil => exact Or.inr ⟨[], List.mem_singleton.mp h, Or.inl rfl⟩
  | cons first cache ih =>
    unfold saveLogPage at h
    split at h
    · rename_i hn
      rcases List.mem_cons.mp h with rfl | h
      · exact Or.inr ⟨first.logpageList, by rw [hn], Or.inr (List.mem_cons.mpr (Or.inl (by rw [← hn])))⟩
      · exact Or.inl (List.mem_cons_of_mem _ h)
    · rcases List.mem_cons.mp h with rfl | h
      · exact Or.inl List.mem_cons_self
      · rcases ih h with h | ⟨pages, hsub, hpages⟩
        · exact Or.inl (List.mem_cons_of_mem _ h)
        · exact Or.inr ⟨pages, hsub, hpages.imp_right (List.mem_cons_of_mem _)⟩

/-! ## Each phase keeps what is unique -/

theorem UniqueKeys.invalidate {cache : List AcSubsystem} (h : UniqueKeys cache) : UniqueKeys (invalidateLogPages cache) where
  names := by
    have hnames : (invalidateLogPages cache).map AcSubsystem.nqn = cache.map AcSubsystem.nqn := by simp [invalidateLogPages]
    rw [hnames]
    exact h.names
  keys := by
    intro subsys hsub
    obtain ⟨before, hbefore, rfl⟩ := List.mem_map.mp hsub
    have hkeys := h.keys before hbefore
    simpa only [AcSubsystem.keys, List.map_map, Function.comp_def] using hkeys

theorem UniqueKeys.save {cache : List AcSubsystem} (h : UniqueKeys cache) (e : LogEntry) :
    UniqueKeys (saveLogPage e cache) where
  names := by
    rw [names_saveLogPage]
    split
    · exact h.names
    · rename_i hnew
      exact List.nodup_append.mpr
        ⟨h.names, List.nodup_singleton _, fun a ha b hb hab => hnew (List.mem_singleton.mp hb ▸ hab ▸ ha)⟩
  keys := by
    intro subsys hsub
    rcases mem_saveLogPage hsub with hsub | ⟨pages, rfl, hpages⟩
    · exact h.keys subsys hsub
    · refine nodup_savePage e e.subnqn ?_
      rcases hpages with rfl | hpages
      · exact List.nodup_nil
      · exact h.keys _ hpages

theorem UniqueKeys.saves {cache : List AcSubsystem} (h : UniqueKeys cache) (log : List LogEntry) :
    UniqueKeys (saveLogPages log cache) := by
  induction log generalizing cache with
  | nil => exact h
  | cons e log ih => exact ih (h.save e)

/-- A subsystem that has lost some of its pages, or none. -/
def Shrunk (subsys subsys' : AcSubsystem) : Prop :=
  subsys'.nqn = subsys.nqn ∧ subsys'.logpageList.Sublist subsys.logpageList

theorem Shrunk.keys {subsys subsys' : AcSubsystem} (h : Shrunk subsys subsys') : subsys'.keys.Sublist subsys.keys := by
  unfold AcSubsystem.keys
  rw [h.1]
  exact h.2.map _

theorem UniqueKeys.shrink {cache cache' : List AcSubsystem} (h : UniqueKeys cache) (hs : List.Forall₂ Shrunk cache cache') :
    UniqueKeys cache' := by
  obtain ⟨hnames, hkeys⟩ := h
  induction hs with
  | nil => exact ⟨hnames, hkeys⟩
  | @cons subsys subsys' cache cache' hhead htail ih =>
    rw [List.map_cons, List.nodup_cons] at hnames
    have hrest := ih hnames.2 (fun s hs => hkeys s (List.mem_cons_of_mem _ hs))
    have hmap : cache'.map AcSubsystem.nqn = cache.map AcSubsystem.nqn := by
      clear ih hrest hnames hkeys
      induction htail with
      | nil => rfl
      | cons hhead _ ih => rw [List.map_cons, List.map_cons, hhead.1, ih]
    refine ⟨?_, ?_⟩
    · rw [List.map_cons, List.nodup_cons, hhead.1, hmap]
      exact hnames
    · intro s hmem
      rcases List.mem_cons.mp hmem with rfl | hmem
      · exact (hkeys subsys List.mem_cons_self).sublist hhead.keys
      · exact hrest.keys s hmem

theorem UniqueKeys.sublist {cache cache' : List AcSubsystem} (h : UniqueKeys cache) (hs : cache'.Sublist cache) :
    UniqueKeys cache' :=
  ⟨h.names.sublist (hs.map _), fun subsys hmem => h.keys subsys (hs.subset hmem)⟩

theorem shrunk_map {f : AcSubsystem → AcSubsystem} (hf : ∀ subsys, Shrunk subsys (f subsys)) (cache : List AcSubsystem) :
    List.Forall₂ Shrunk cache (cache.map f) := by
  rw [List.forall₂_map_right_iff]
  exact List.forall₂_same.mpr (fun subsys _ => hf subsys)

theorem markPage_sublist (ctrl : KernelCtrl) (pages : List AcLogpage) : (markPage ctrl pages).Sublist pages := by
  induction pages with
  | nil => exact List.Sublist.refl _
  | cons page pages ih =>
    unfold markPage
    split
    · split
      · exact List.sublist_cons_self _ _
      · exact List.Sublist.refl _
    · exact ih.cons_cons _

theorem markPages_sublist (dir : List KernelCtrl) (pages : List AcLogpage) :
    (dir.foldl (fun pages ctrl => markPage ctrl pages) pages).Sublist pages := by
  induction dir generalizing pages with
  | nil => exact List.Sublist.refl _
  | cons ctrl dir ih => exact (ih _).trans (markPage_sublist ctrl pages)

theorem shrunk_markConnected (dirs : List (Option (List KernelCtrl))) (cache : List AcSubsystem) :
    List.Forall₂ Shrunk cache (markConnectedSubsystems dirs cache) := by
  have hrefl (cache : List AcSubsystem) : List.Forall₂ Shrunk cache cache :=
    List.forall₂_same.mpr (fun subsys _ => ⟨rfl, List.Sublist.refl _⟩)
  induction dirs generalizing cache with
  | nil => exact hrefl cache
  | cons dir dirs ih =>
    cases dir with
    | none => exact hrefl cache
    | some dir =>
      cases cache with
      | nil => exact List.Forall₂.nil
      | cons subsys cache => exact List.Forall₂.cons ⟨rfl, markPages_sublist _ _⟩ (ih cache)

theorem shrunk_unmarked (subsys : AcSubsystem) :
    Shrunk subsys { subsys with logpageList := subsys.logpageList.filter (fun page => decide (page.valid ≠ .deleted)) } :=
  ⟨rfl, List.filter_sublist⟩

theorem UniqueKeys.cleanup {cache : List AcSubsystem} (h : UniqueKeys cache) : UniqueKeys (cleanupLogPages cache) :=
  (h.shrink (shrunk_map shrunk_unmarked cache)).sublist List.filter_sublist

/-! ## Memory for what is new -/

/-- `malloc` does not fail for an entry whose page is new, nor where its subsystem is new. -/
def Stored (log : List (LogEntry × Memory)) (cache : List AcSubsystem) : Prop :=
  ∀ (before rest : List (LogEntry × Memory)) (e : LogEntry) (mem : Memory), log = before ++ (e, mem) :: rest →
    e.key ∉ cachedKeys cache → e.key ∉ before.map (fun entry => entry.1.key) →
    mem.page = true ∧
      (e.subnqn ∉ cache.map AcSubsystem.nqn → e.subnqn ∉ before.map (fun entry => entry.1.subnqn) → mem.subsys = true)

theorem mem_cachedKeys_save (e : LogEntry) (cache : List AcSubsystem) (key : PageKey) :
    key ∈ cachedKeys (saveLogPage e cache) ↔ key = e.key ∨ key ∈ cachedKeys cache := by
  have hpages (nqn : String) (pages : List AcLogpage) :
      key ∈ (savePage e pages).map (fun page => page.e.keyFor nqn) ↔
        key = e.keyFor nqn ∨ key ∈ pages.map (fun page => page.e.keyFor nqn) := by
    rw [keys_savePage]
    split
    · rename_i hany
      rw [any_match_iff e nqn] at hany
      constructor
      · exact Or.inr
      · rintro (rfl | h)
        · exact hany
        · exact h
    · rw [List.mem_append, List.mem_singleton, or_comm]
  induction cache with
  | nil =>
    show key ∈ (savePage e []).map (fun page => page.e.keyFor e.subnqn) ++ [] ↔ _
    rw [List.append_nil, hpages]
    rfl
  | cons subsys cache ih =>
    unfold saveLogPage
    split
    · rename_i hn
      simp only [cachedKeys, List.flatMap_cons, List.mem_append]
      show key ∈ (savePage e subsys.logpageList).map (fun page => page.e.keyFor subsys.nqn) ∨ _ ↔ _
      rw [hpages, hn, or_assoc]
      unfold AcSubsystem.keys
      rw [hn]
      rfl
    · simp only [cachedKeys, List.flatMap_cons, List.mem_append] at ih ⊢
      exact (or_congr Iff.rfl ih).trans or_left_comm

theorem mem_names_save (e : LogEntry) (cache : List AcSubsystem) (nqn : String) :
    nqn ∈ (saveLogPage e cache).map AcSubsystem.nqn ↔ nqn = e.subnqn ∨ nqn ∈ cache.map AcSubsystem.nqn := by
  rw [names_saveLogPage]
  split
  · rename_i hm
    constructor
    · exact Or.inr
    · rintro (rfl | h)
      · exact hm
      · exact h
  · rw [List.mem_append, List.mem_singleton, or_comm]

theorem stored_cons {e : LogEntry} {mem : Memory} {log : List (LogEntry × Memory)} {cache : List AcSubsystem} :
    Stored ((e, mem) :: log) cache ↔
      (e.key ∉ cachedKeys cache → mem.page = true ∧ (e.subnqn ∉ cache.map AcSubsystem.nqn → mem.subsys = true)) ∧
        Stored log (saveLogPage e cache) := by
  constructor
  · intro h
    refine ⟨fun hkey => ?_, ?_⟩
    · obtain ⟨hpage, hsubsys⟩ := h [] log e mem rfl hkey (List.not_mem_nil)
      exact ⟨hpage, fun hn => hsubsys hn List.not_mem_nil⟩
    · intro before rest e' mem' hlog hkey hbefore
      rw [mem_cachedKeys_save, not_or] at hkey
      obtain ⟨hpage, hsubsys⟩ := h ((e, mem) :: before) rest e' mem' (by rw [hlog]; rfl) hkey.2
        (fun hm => (List.mem_cons.mp hm).elim hkey.1 hbefore)
      refine ⟨hpage, fun hn hnb => ?_⟩
      rw [mem_names_save, not_or] at hn
      exact hsubsys hn.2 (fun hm => (List.mem_cons.mp hm).elim hn.1 hnb)
  · rintro ⟨hhead, htail⟩ before rest e' mem' hlog hkey hbefore
    cases before with
    | nil =>
      rw [List.nil_append, List.cons.injEq, Prod.mk.injEq] at hlog
      obtain ⟨⟨rfl, rfl⟩, rfl⟩ := hlog
      obtain ⟨hpage, hsubsys⟩ := hhead hkey
      exact ⟨hpage, fun hn _ => hsubsys hn⟩
    | cons first before =>
      rw [List.cons_append, List.cons.injEq] at hlog
      obtain ⟨rfl, rfl⟩ := hlog
      rw [List.map_cons, List.mem_cons, not_or] at hbefore
      obtain ⟨hpage, hsubsys⟩ := htail before rest e' mem' rfl
        (fun hm => ((mem_cachedKeys_save e cache _).mp hm).elim hbefore.1 hkey) hbefore.2
      refine ⟨hpage, fun hn hnb => ?_⟩
      rw [List.map_cons, List.mem_cons, not_or] at hnb
      exact hsubsys (fun hm => ((mem_names_save e cache _).mp hm).elim hnb.1 hn) hnb.2

/-- No subsystem was found for an entry: neither its name nor its page is kept. -/
theorem new_of_find {e : LogEntry} {cache : List AcSubsystem}
    (hfind : cache.find? (fun subsys => subsys.nqn == e.subnqn) = none) :
    e.subnqn ∉ cache.map AcSubsystem.nqn ∧ e.key ∉ cachedKeys cache := by
  rw [List.find?_eq_none] at hfind
  constructor
  · intro hm
    obtain ⟨subsys, hsub, hn⟩ := List.mem_map.mp hm
    exact hfind subsys hsub (beq_iff_eq.mpr hn)
  · intro hm
    obtain ⟨subsys, hsub, hkey⟩ := List.mem_flatMap.mp hm
    obtain ⟨page, -, heq⟩ := List.mem_map.mp hkey
    exact hfind subsys hsub (beq_iff_eq.mpr (congrArg PageKey.subnqn heq))

/-- Where names are unique, the subsystem that was found for an entry is the one that may have its page. -/
theorem page_of_find {e : LogEntry} {cache : List AcSubsystem} {subsys : AcSubsystem}
    (hnames : (cache.map AcSubsystem.nqn).Nodup) (hfind : cache.find? (fun subsys => subsys.nqn == e.subnqn) = some subsys) :
    e.subnqn ∈ cache.map AcSubsystem.nqn ∧
      (subsys.logpageList.any (fun page => matchLogpage page e) = true ↔ e.key ∈ cachedKeys cache) := by
  have hmem := List.mem_of_find?_eq_some hfind
  have hn : subsys.nqn = e.subnqn := by simpa using List.find?_some hfind
  refine ⟨List.mem_map.mpr ⟨subsys, hmem, hn⟩, ?_⟩
  rw [any_match_iff e e.subnqn]
  constructor
  · intro hkey
    refine List.mem_flatMap.mpr ⟨subsys, hmem, ?_⟩
    unfold AcSubsystem.keys
    rw [hn]
    exact hkey
  · intro hkey
    obtain ⟨other, hother, hkey⟩ := List.mem_flatMap.mp hkey
    obtain ⟨page, hpage, heq⟩ := List.mem_map.mp hkey
    -- The page's subsystem has the name of the one that was found.
    have hsame : other = subsys :=
      List.inj_on_of_nodup_map hnames hother hmem ((congrArg PageKey.subnqn heq).trans hn.symm)
    rw [hsame, hn] at heq
    rw [hsame] at hpage
    exact List.mem_map.mpr ⟨page, hpage, heq⟩

/-- When no allocation fails the whole log is saved. -/
theorem saveLogPagesIn_stored {log : List (LogEntry × Memory)} {cache : List AcSubsystem} (h : UniqueKeys cache)
    (hs : Stored log cache) : saveLogPagesIn log cache = saveLogPages (log.map Prod.fst) cache := by
  induction log generalizing cache with
  | nil => rfl
  | cons entry log ih =>
    obtain ⟨e, mem⟩ := entry
    obtain ⟨hhead, htail⟩ := stored_cons.mp hs
    have hrest : saveLogPagesIn log (saveLogPage e cache) = saveLogPages (log.map Prod.fst) (saveLogPage e cache) :=
      ih (h.save e) htail
    show saveLogPagesIn ((e, mem) :: log) cache = saveLogPages (log.map Prod.fst) (saveLogPage e cache)
    rw [← hrest, saveLogPagesIn]
    split
    · rename_i subsys hfind
      obtain ⟨-, hany⟩ := page_of_find h.names hfind
      by_cases hkey : e.key ∈ cachedKeys cache
      · rw [hany.mpr hkey, Bool.true_or, if_pos rfl]
      · rw [(hhead hkey).1, Bool.or_true, if_pos rfl]
    · rename_i hfind
      obtain ⟨hn, hkey⟩ := new_of_find hfind
      rw [if_pos ((hhead hkey).2 hn), if_pos (hhead hkey).1]

/-- When an allocation fails a key of the log is not kept. -/
theorem saveLogPagesIn_lost {log : List (LogEntry × Memory)} {cache : List AcSubsystem} (h : UniqueKeys cache)
    (hs : ¬ Stored log cache) :
    ∃ key ∈ (log.map Prod.fst).map LogEntry.key, key ∉ cachedKeys (saveLogPagesIn log cache) := by
  induction log generalizing cache with
  | nil => exact absurd (fun before rest e mem hlog => absurd hlog (by simp)) hs
  | cons entry log ih =>
    obtain ⟨e, mem⟩ := entry
    have hgo (hstep : saveLogPagesIn ((e, mem) :: log) cache = saveLogPagesIn log (saveLogPage e cache))
        (hhead : e.key ∉ cachedKeys cache → mem.page = true ∧ (e.subnqn ∉ cache.map AcSubsystem.nqn → mem.subsys = true)) :
        ∃ key ∈ (((e, mem) :: log).map Prod.fst).map LogEntry.key, key ∉ cachedKeys (saveLogPagesIn ((e, mem) :: log) cache) := by
      obtain ⟨key, hkey, hlost⟩ := ih (h.save e) (fun htail => hs (stored_cons.mpr ⟨hhead, htail⟩))
      exact ⟨key, List.mem_cons_of_mem _ hkey, hstep ▸ hlost⟩
    have hstay (hkey : e.key ∉ cachedKeys cache)
        (hstep : cachedKeys (saveLogPagesIn ((e, mem) :: log) cache) = cachedKeys cache) :
        ∃ key ∈ (((e, mem) :: log).map Prod.fst).map LogEntry.key, key ∉ cachedKeys (saveLogPagesIn ((e, mem) :: log) cache) :=
      ⟨e.key, List.mem_cons_self, hstep ▸ hkey⟩
    cases hfind : cache.find? (fun subsys => subsys.nqn == e.subnqn) with
    | some subsys =>
      obtain ⟨hn, hany⟩ := page_of_find h.names hfind
      by_cases hpage : (subsys.logpageList.any (fun page => matchLogpage page e) || mem.page) = true
      · refine hgo (by rw [saveLogPagesIn, hfind]; exact if_pos hpage) (fun hkey => ⟨?_, fun hnew => absurd hn hnew⟩)
        rcases Bool.or_eq_true _ _ ▸ hpage with hpage | hpage
        · exact absurd (hany.mp hpage) hkey
        · exact hpage
      · refine hstay (fun hkey => hpage ?_) (by rw [saveLogPagesIn, hfind]; exact congrArg cachedKeys (if_neg hpage))
        rw [hany.mpr hkey, Bool.true_or]
    | none =>
      obtain ⟨hn, hkey⟩ := new_of_find hfind
      by_cases hsubsys : mem.subsys = true
      · by_cases hpage : mem.page = true
        · exact hgo (by rw [saveLogPagesIn, hfind]; exact (if_pos hsubsys).trans (if_pos hpage)) (fun _ => ⟨hpage, fun _ => hsubsys⟩)
        · refine hstay hkey ?_
          have hstep : saveLogPagesIn ((e, mem) :: log) cache = cache ++ [{ nqn := e.subnqn, logpageList := [] }] := by
            rw [saveLogPagesIn, hfind]
            exact (if_pos hsubsys).trans (if_neg hpage)
          rw [hstep]
          simp [cachedKeys, AcSubsystem.keys]
      · exact hstay hkey (by rw [saveLogPagesIn, hfind]; exact congrArg cachedKeys (if_neg hsubsys))

/-! ## A directory that can be read -/

/-- No pointer to one past NULL is followed for an entry. -/
def Shown.legible (pages : List AcLogpage) : Shown → Bool
  | .nothing => true
  | .noAddr => false
  | .ctrl trtype addr none => !pages.any (portCompared trtype addr)
  | .ctrl _ _ (some _) => true

/-- The kernel's controller that an entry is for. -/
def Shown.ctrl? (nqn : String) : Shown → Option KernelCtrl
  | .ctrl trtype addr (some port) => some { subnqn := nqn, trtype := trtype, traddr := addr, trsvcid := port }
  | _ => none

/-- What the entries of a directory come to, one after the other, with the buffers that each finds. -/
def shownEntries (nqn : String) : List DirEntry → Buffers → List Shown
  | [], _ => []
  | entry :: dir, buf => (readEntry nqn entry buf).1 :: shownEntries nqn dir (readEntry nqn entry buf).2

/-- The buffers after a directory was read. -/
def lastBuffers (nqn : String) (dir : List DirEntry) (buf : Buffers) : Buffers :=
  dir.foldl (fun buf entry => (readEntry nqn entry buf).2) buf

/-- The pages after the controllers were looked at. -/
def leftPages (nqn : String) (shown : List Shown) (pages : List AcLogpage) : List AcLogpage :=
  (shown.filterMap (Shown.ctrl? nqn)).foldl (fun pages ctrl => markPage ctrl pages) pages

/-- Each entry can be read, with the pages that the entries before it leave. -/
def legibleEntries (nqn : String) : List Shown → List AcLogpage → Bool
  | [], _ => true
  | shown :: rest, pages => shown.legible pages && legibleEntries nqn rest (leftPages nqn [shown] pages)

def legible : List (Option (List DirEntry)) → Buffers → List AcSubsystem → Bool
  | some dir :: dirs, buf, subsys :: rest =>
    legibleEntries subsys.nqn (shownEntries subsys.nqn dir buf) subsys.logpageList &&
      legible dirs (lastBuffers subsys.nqn dir buf) rest
  | _, _, _ => true

theorem mark_eq (nqn : String) (pages : List AcLogpage) (shown : Shown) :
    shown.mark nqn pages = if shown.legible pages then .ok (leftPages nqn [shown] pages) else .error .nullPointer := by
  cases shown with
  | nothing => rfl
  | noAddr => rfl
  | ctrl trtype addr port =>
    cases port with
    | some port => rfl
    | none =>
      show (if pages.any (portCompared trtype addr) then _ else _) = if (!pages.any (portCompared trtype addr)) = true then _ else _
      cases pages.any (portCompared trtype addr) <;> rfl

theorem markEntries_eq (nqn : String) (dir : List DirEntry) (buf : Buffers) (pages : List AcLogpage) :
    markEntries nqn dir buf pages =
      if legibleEntries nqn (shownEntries nqn dir buf) pages then
        .ok (leftPages nqn (shownEntries nqn dir buf) pages, lastBuffers nqn dir buf)
      else .error .nullPointer := by
  induction dir generalizing buf pages with
  | nil => rfl
  | cons entry dir ih =>
    have hleft (shown : Shown) (rest : List Shown) :
        leftPages nqn (shown :: rest) pages = leftPages nqn rest (leftPages nqn [shown] pages) := by
      unfold leftPages
      rw [← List.foldl_append, ← List.filterMap_append, List.singleton_append]
    rw [markEntries, mark_eq]
    show (_ >>= _) = if ((readEntry nqn entry buf).1.legible pages && _) = true then _ else _
    cases (readEntry nqn entry buf).1.legible pages with
    | false => rfl
    | true =>
      rw [if_pos rfl, Bool.true_and]
      refine (ih _ _).trans ?_
      rw [shownEntries, hleft _ (shownEntries nqn dir _)]
      rfl

/-- The controllers that each directory shows. -/
def shownDirs : List (Option (List DirEntry)) → Buffers → List AcSubsystem → List (Option (List KernelCtrl))
  | some dir :: dirs, buf, subsys :: rest =>
    some ((shownEntries subsys.nqn dir buf).filterMap (Shown.ctrl? subsys.nqn)) ::
      shownDirs dirs (lastBuffers subsys.nqn dir buf) rest
  | _, _, _ => []

/-- What an entry is for is a controller of the subsystem. -/
theorem markSubsystem_shown (subsys : AcSubsystem) (shown : List Shown) :
    markSubsystem (shown.filterMap (Shown.ctrl? subsys.nqn)) subsys =
      { subsys with logpageList := leftPages subsys.nqn shown subsys.logpageList } := by
  have hall : (shown.filterMap (Shown.ctrl? subsys.nqn)).filter (fun ctrl => ctrl.subnqn == subsys.nqn) =
      shown.filterMap (Shown.ctrl? subsys.nqn) := by
    rw [List.filter_eq_self]
    intro ctrl hctrl
    obtain ⟨entry, -, hentry⟩ := List.mem_filterMap.mp hctrl
    unfold Shown.ctrl? at hentry
    split at hentry
    · rw [← Option.some.inj hentry]
      exact beq_self_eq_true _
    · exact absurd hentry (by simp)
  unfold markSubsystem
  simp only [hall, leftPages]

/-- The walk over the directories is the walk over the controllers they show, if their texts can be read. -/
theorem markConnected_eq (dirs : List (Option (List DirEntry))) (buf : Buffers) (cache : List AcSubsystem) :
    markConnected dirs buf cache =
      if legible dirs buf cache then .ok (markConnectedSubsystems (shownDirs dirs buf cache) cache)
      else .error .nullPointer := by
  induction dirs generalizing buf cache with
  | nil => rfl
  | cons dir dirs ih =>
    cases dir with
    | none => rfl
    | some dir =>
      cases cache with
      | nil => rfl
      | cons subsys cache =>
        rw [markConnected, markEntries_eq, legible]
        cases legibleEntries subsys.nqn (shownEntries subsys.nqn dir buf) subsys.logpageList with
        | false => rfl
        | true =>
          rw [if_pos rfl, Bool.true_and]
          show (markConnected dirs (lastBuffers subsys.nqn dir buf) cache >>= _) = _
          rw [ih]
          cases legible dirs (lastBuffers subsys.nqn dir buf) cache with
          | false => rfl
          | true =>
            rw [if_pos rfl, if_pos rfl, shownDirs, markConnectedSubsystems, markSubsystem_shown]
            rfl

/-! ## The cache after an update -/

/-- After a merge that went through, the pages that are not marked deleted are those of the log. -/
theorem mem_liveKeys_merged (log : List LogEntry) (cache : List AcSubsystem) (key : PageKey) :
    key ∈ liveKeys (saveLogPages log (invalidateLogPages cache)) ↔ key ∈ log.map LogEntry.key := by
  rw [mem_liveKeys_saveLogPages, liveKeys_invalidate]
  simp

/-- What is left of a cache when its deleted pages are removed and what has none goes. -/
theorem follows_cleanup {log : List LogEntry} {cache : List AcSubsystem} (h : UniqueKeys cache)
    (hlive : ∀ key, key ∈ liveKeys cache ↔ key ∈ log.map LogEntry.key) : Follows log (cleanupLogPages cache) where
  keys := fun key => cachedKeys_cleanup cache ▸ hlive key
  unique := h.cleanup
  pages := by
    intro subsys hmem hempty
    have hkept := (List.mem_filter.mp hmem).2
    simp [hempty] at hkept

theorem cachedKeys_monitor_cleanup (cache : List AcSubsystem) : cachedKeys (Monitor.cleanupLogPages cache) = liveKeys cache := by
  simp only [cachedKeys, Monitor.cleanupLogPages, List.flatMap_map]
  rfl

/-- The monitor's cleanup finds nothing where the other one was. -/
theorem monitor_cleanup_cleanup (cache : List AcSubsystem) :
    Monitor.cleanupLogPages (cleanupLogPages cache) = cleanupLogPages cache := by
  refine (List.map_congr_left (fun subsys hmem => ?_)).trans (List.map_id _)
  obtain ⟨before, -, rfl⟩ := List.mem_map.mp (List.mem_filter.mp hmem).1
  simp only [List.filter_filter, Bool.and_self, id_eq]

/-- Only live pages are among those that are kept. -/
theorem mem_cachedKeys_of_live {cache : List AcSubsystem} {key : PageKey} (h : key ∈ liveKeys cache) : key ∈ cachedKeys cache := by
  obtain ⟨subsys, hmem, hkey⟩ := List.mem_flatMap.mp h
  exact List.mem_flatMap.mpr ⟨subsys, hmem, (List.filter_sublist.map _).subset hkey⟩

/-- A subsystem has a live page if its name is that of a live key. -/
theorem live_iff_of_names {cache : List AcSubsystem} (h : UniqueKeys cache) {subsys : AcSubsystem} (hmem : subsys ∈ cache) :
    subsys.logpageList.filter (fun page => decide (page.valid ≠ .deleted)) ≠ [] ↔
      subsys.nqn ∈ (liveKeys cache).map PageKey.subnqn := by
  constructor
  · intro hpages
    obtain ⟨page, hpage⟩ := List.exists_mem_of_ne_nil _ hpages
    exact List.mem_map.mpr ⟨page.e.keyFor subsys.nqn,
      List.mem_flatMap.mpr ⟨subsys, hmem, List.mem_map.mpr ⟨page, hpage, rfl⟩⟩, rfl⟩
  · intro hname hpages
    obtain ⟨key, hkey, hn⟩ := List.mem_map.mp hname
    obtain ⟨other, hother, hkey⟩ := List.mem_flatMap.mp hkey
    obtain ⟨page, hpage, rfl⟩ := List.mem_map.mp hkey
    have hsame : other = subsys := List.inj_on_of_nodup_map h.names hother hmem hn
    rw [hsame, hpages] at hpage
    exact List.not_mem_nil hpage

theorem mem_names_saveLogPages (log : List LogEntry) (cache : List AcSubsystem) (nqn : String) :
    nqn ∈ (saveLogPages log cache).map AcSubsystem.nqn ↔ nqn ∈ log.map LogEntry.subnqn ∨ nqn ∈ cache.map AcSubsystem.nqn := by
  induction log generalizing cache with
  | nil => simp [saveLogPages]
  | cons e log ih =>
    have h := ih (saveLogPage e cache)
    rw [mem_names_save] at h
    simp only [saveLogPages, List.foldl_cons, List.map_cons, List.mem_cons] at h ⊢
    rw [h]
    tauto

/-- Without memory for a header a subsystem that has no page left stays. -/
theorem follows_monitor_cleanup {log : List LogEntry} {cache : List AcSubsystem} (h : UniqueKeys cache) :
    Follows log (Monitor.cleanupLogPages (saveLogPages log (invalidateLogPages cache))) ↔
      ∀ subsys ∈ cache, subsys.nqn ∈ log.map LogEntry.subnqn := by
  have hmerged := h.invalidate.saves log
  have hnames (nqn : String) : nqn ∈ (liveKeys (saveLogPages log (invalidateLogPages cache))).map PageKey.subnqn ↔
      nqn ∈ log.map LogEntry.subnqn := by
    simp only [List.mem_map, mem_liveKeys_merged]
    constructor
    · rintro ⟨key, ⟨e, he, rfl⟩, hn⟩
      exact ⟨e, he, hn⟩
    · rintro ⟨e, he, hn⟩
      exact ⟨e.key, ⟨e, he, rfl⟩, hn⟩
  have hinvalid : (invalidateLogPages cache).map AcSubsystem.nqn = cache.map AcSubsystem.nqn := by simp [invalidateLogPages]
  constructor
  · intro hf subsys hmem
    have hkept : subsys.nqn ∈ (saveLogPages log (invalidateLogPages cache)).map AcSubsystem.nqn :=
      (mem_names_saveLogPages _ _ _).mpr (Or.inr (hinvalid ▸ List.mem_map_of_mem hmem))
    obtain ⟨merged, hin, hn⟩ := List.mem_map.mp hkept
    have hpages := hf.pages _ (List.mem_map_of_mem hin)
    exact hn ▸ (hnames _).mp ((live_iff_of_names hmerged hin).mp hpages)
  · intro hall
    refine ⟨fun key => ?_, hmerged.shrink (shrunk_map shrunk_unmarked _), ?_⟩
    · rw [cachedKeys_monitor_cleanup]
      exact mem_liveKeys_merged log cache key
    · intro subsys hmem
      obtain ⟨merged, hin, rfl⟩ := List.mem_map.mp hmem
      refine (live_iff_of_names hmerged hin).mpr ((hnames _).mpr ?_)
      rcases (mem_names_saveLogPages _ _ _).mp (List.mem_map_of_mem hin) with hlog | hcache
      · exact hlog
      · rw [hinvalid] at hcache
        obtain ⟨before, hbefore, hn⟩ := List.mem_map.mp hcache
        exact hn ▸ hall before hbefore

theorem cachedKeys_invalidate (cache : List AcSubsystem) : cachedKeys (invalidateLogPages cache) = cachedKeys cache := by
  simp only [cachedKeys, invalidateLogPages, List.flatMap_map, AcSubsystem.keys, List.map_map, Function.comp_def]
  rfl

theorem stored_invalidate {log : List (LogEntry × Memory)} {cache : List AcSubsystem} :
    Stored log (invalidateLogPages cache) ↔ Stored log cache := by
  have hnames : (invalidateLogPages cache).map AcSubsystem.nqn = cache.map AcSubsystem.nqn := by simp [invalidateLogPages]
  unfold Stored
  rw [cachedKeys_invalidate, hnames]

/-- A log that was fetched is what a client keeps exactly when there is memory for what is new in it and, for the connecting
client, the kernel's directory can be read, and for the monitor, there is memory for a header or no subsystem has lost its last
page. -/
theorem caches_follow_log {cache : List AcSubsystem} (h : UniqueKeys cache) (log : List (LogEntry × Memory))
    (dirs : List (Option (List DirEntry))) (junk : Buffers) (hdr : Bool) :
    ((∃ cache' : List AcSubsystem, processUpdates dirs junk log cache = .ok cache' ∧ Follows (log.map Prod.fst) cache') ↔
      Stored log cache ∧ legible dirs junk (saveLogPages (log.map Prod.fst) (invalidateLogPages cache)) = true) ∧
    (Follows (log.map Prod.fst) (Monitor.reportUpdates hdr log cache) ↔
      Stored log cache ∧
        (hdr = true ∨ ∀ subsys ∈ cache, subsys.nqn ∈ (log.map Prod.fst).map LogEntry.subnqn)) := by
  have hinv := h.invalidate
  by_cases hs : Stored log cache
  · have hsaved := saveLogPagesIn_stored hinv (stored_invalidate.mpr hs)
    have hmerged := hinv.saves (log.map Prod.fst)
    unfold processUpdates Monitor.reportUpdates
    rw [hsaved, markConnected_eq]
    constructor
    · cases legible dirs junk (saveLogPages (log.map Prod.fst) (invalidateLogPages cache)) with
      | false =>
        refine ⟨?_, fun hc => absurd hc.2 (by decide)⟩
        rintro ⟨cache', hrun, -⟩
        exact absurd hrun (by simp [bind, Except.bind])
      | true =>
        refine ⟨fun _ => ⟨hs, rfl⟩, fun _ => ⟨_, rfl, follows_cleanup ?_ ?_⟩⟩
        · exact hmerged.shrink (shrunk_markConnected _ _)
        · intro key
          rw [liveKeys_markConnected]
          exact mem_liveKeys_merged _ cache key
    · cases hdr with
      | true =>
        refine ⟨fun _ => ⟨hs, Or.inl rfl⟩, fun _ => ?_⟩
        show Follows _ (Monitor.cleanupLogPages (cleanupLogPages _))
        rw [monitor_cleanup_cleanup]
        exact follows_cleanup hmerged (mem_liveKeys_merged _ cache)
      | false =>
        exact (follows_monitor_cleanup h).trans ⟨fun hall => ⟨hs, Or.inr hall⟩, fun hc => hc.2.resolve_left (by decide)⟩
  · -- A key of the log is neither kept after the merge nor after what only removes pages.
    obtain ⟨key, hkey, hlost⟩ := saveLogPagesIn_lost hinv (fun hc => hs (stored_invalidate.mp hc))
    have hnot {cache' : List AcSubsystem}
        (hsub : ∀ key, key ∈ cachedKeys cache' → key ∈ liveKeys (saveLogPagesIn log (invalidateLogPages cache))) :
        ¬ Follows (log.map Prod.fst) cache' :=
      fun hf => hlost (mem_cachedKeys_of_live (hsub key ((hf.keys key).mpr hkey)))
    refine ⟨⟨?_, fun hc => absurd hc.1 hs⟩, ⟨fun hf => absurd hf (hnot fun key hin => ?_), fun hc => absurd hc.1 hs⟩⟩
    · rintro ⟨cache', hrun, hf⟩
      unfold processUpdates at hrun
      rw [markConnected_eq] at hrun
      split at hrun
      · rw [← Except.ok.inj hrun] at hf
        refine absurd hf (hnot fun key hin => ?_)
        rwa [cachedKeys_cleanup, liveKeys_markConnected] at hin
      · exact absurd hrun (by simp [bind, Except.bind])
    · unfold Monitor.reportUpdates at hin
      rw [cachedKeys_monitor_cleanup] at hin
      cases hdr with
      | false => exact hin
      | true => exact cachedKeys_cleanup _ ▸ mem_cachedKeys_of_live hin

def onePageLog : LogEntry := { trtype := 1, adrfam := 1, subnqn := "nqn.a", traddr := "10.0.0.1", trsvcid := "4420" }

/-- What the buffers hold before anything was read. -/
def noBuffers : Buffers := { val := "", address := "" }

def enough : Memory := { subsys := true, page := true }

def pageKept : List AcSubsystem := [{ nqn := "nqn.a", logpageList := [{ e := onePageLog, valid := .valid }] }]

theorem pageKept_unique : UniqueKeys pageKept :=
  ⟨List.nodup_singleton _, fun _ hmem => List.mem_singleton.mp hmem ▸ List.nodup_singleton _⟩

/-- The controller that the kernel has for the page that is kept. -/
def rdmaCtrl : DirEntry where
  name := "nvme0"
  subsysnqn := some "nqn.a\n"
  address := some "traddr=10.0.0.1,trsvcid=4420\n"
  transport := some "rdma\n"

/-- A subsystem is no longer in the log: the connecting client forgets it, the monitor without memory for a header does not. -/
theorem caches_follow_log_gone :
    (∃ cache' : List AcSubsystem,
      processUpdates [some [rdmaCtrl], some [rdmaCtrl]] noBuffers [({ onePageLog with subnqn := "nqn.b" }, enough)] pageKept =
        .ok cache' ∧ Follows [{ onePageLog with subnqn := "nqn.b" }] cache') ∧
    ¬ Follows [{ onePageLog with subnqn := "nqn.b" }]
      (Monitor.reportUpdates false [({ onePageLog with subnqn := "nqn.b" }, enough)] pageKept) := by
  have hfollow := caches_follow_log pageKept_unique [({ onePageLog with subnqn := "nqn.b" }, enough)]
    [some [rdmaCtrl], some [rdmaCtrl]] noBuffers false
  refine ⟨hfollow.1.mpr ⟨?_, by decide⟩, fun hf => ?_⟩
  · intro before rest e mem hlog _ _
    have hmem : (e, mem) ∈ [({ onePageLog with subnqn := "nqn.b" }, enough)] := by rw [hlog]; simp
    rw [(Prod.mk.inj (List.mem_singleton.mp hmem)).2]
    exact ⟨rfl, fun _ _ => rfl⟩
  · have hall := (hfollow.2.mp hf).2.resolve_left (by decide)
    exact absurd (hall _ (List.mem_singleton.mpr rfl)) (by decide)

/-! ## A controller without an address -/

/-- A controller of the loop transport, which has no address to show. -/
def loopCtrl : DirEntry where
  name := "nvme1"
  subsysnqn := some "nqn.a\n"
  address := some "\n"
  transport := some "loop\n"

/-- A loop controller of a subsystem in the log stops the client, which has all the memory it asks for. -/
theorem caches_follow_log_false :
    ¬ ∀ (cache : List AcSubsystem) (log : List (LogEntry × Memory)) (dirs : List (Option (List DirEntry))) (junk : Buffers),
      UniqueKeys cache → (∀ entry ∈ log, entry.2 = enough) →
        ∃ cache' : List AcSubsystem, processUpdates dirs junk log cache = .ok cache' ∧ Follows (log.map Prod.fst) cache' := by
  intro hall
  obtain ⟨cache', hrun, -⟩ := hall [] [(onePageLog, enough)] [some [loopCtrl]] noBuffers ⟨List.nodup_nil, by simp⟩ (by simp)
  have hstop : processUpdates [some [loopCtrl]] noBuffers [(onePageLog, enough)] [] = .error .nullPointer := by decide
  rw [hstop] at hrun
  exact absurd hrun (by simp)

end NvmeDem
