import NvmeDem.Ac.Monitor
import NvmeDem.Theorems.Caches

/-!
# The monitor and the differences of two logs

What the monitor prints for a log is settled by the mark of each page after the merge: a page of the log that was not kept is new
if the log has it once, and valid if the log has it again; a page that was kept is valid or deleted. The marks stay until the next
log is fetched, so that a call whose fetch fails finds the marks of the log before.
-/

namespace NvmeDem

namespace Monitor

variable {cache : List AcSubsystem} {e : LogEntry} {key : PageKey} {st : PageState}

/-! ## The marks after a merge -/

/-- The pages that are kept, each with its mark. -/
def marks (cache : List AcSubsystem) : List (PageKey × PageState) :=
  cache.flatMap (fun subsys => subsys.logpageList.map (fun page => (page.e.keyFor subsys.nqn, page.valid)))

theorem marks_cons (subsys : AcSubsystem) (cache : List AcSubsystem) :
    marks (subsys :: cache) = subsys.logpageList.map (fun page => (page.e.keyFor subsys.nqn, page.valid)) ++ marks cache :=
  List.flatMap_cons

theorem fst_marks (cache : List AcSubsystem) : (marks cache).map Prod.fst = cachedKeys cache := by
  simp only [marks, List.map_flatMap, List.map_map, Function.comp_def]
  rfl

theorem mem_cachedKeys_of_mark (h : (key, st) ∈ marks cache) : key ∈ cachedKeys cache := by
  rw [← fst_marks]
  exact List.mem_map.mpr ⟨_, h, rfl⟩

/-- The marks of the pages of a subsystem after an entry was saved there. -/
theorem mem_marks_savePage {nqn : String} {pages : List AcLogpage} (h : (pages.map (fun page => page.e.keyFor nqn)).Nodup) :
    (key, st) ∈ (savePage e pages).map (fun page => (page.e.keyFor nqn, page.valid)) ↔
      (key ≠ e.keyFor nqn ∧ (key, st) ∈ pages.map (fun page => (page.e.keyFor nqn, page.valid))) ∨
        (key = e.keyFor nqn ∧
          st = if e.keyFor nqn ∈ pages.map (fun page => page.e.keyFor nqn) then .valid else .new) := by
  induction pages with
  | nil => simp [savePage]
  | cons page pages ih =>
    rw [List.map_cons, List.nodup_cons] at h
    unfold savePage
    by_cases hm : matchLogpage page e = true
    · have hk := key_of_match hm nqn
      have hother : (key, st) ∈ pages.map (fun page => (page.e.keyFor nqn, page.valid)) → key ≠ e.keyFor nqn := by
        rintro hmem rfl
        obtain ⟨other, hin, heq⟩ := List.mem_map.mp hmem
        exact h.1 (List.mem_map.mpr ⟨other, hin, (Prod.mk.inj heq).1.trans hk.symm⟩)
      rw [if_pos hm]
      simp only [List.map_cons, List.mem_cons, hk, true_or, if_true, Prod.mk.injEq]
      tauto
    · have hk : page.e.keyFor nqn ≠ e.keyFor nqn := fun hk => hm (keyFor_eq_iff.mp hk)
      rw [if_neg hm]
      simp only [List.map_cons, List.mem_cons, ih h.2, Prod.mk.injEq, hk.symm, false_or]
      constructor
      · rintro (⟨rfl, rfl⟩ | h | h)
        · exact Or.inl ⟨hk, Or.inl ⟨rfl, rfl⟩⟩
        · exact Or.inl ⟨h.1, Or.inr h.2⟩
        · exact Or.inr h
      · rintro (⟨hne, h | h⟩ | h)
        · exact Or.inl h
        · exact Or.inr (Or.inl ⟨hne, h⟩)
        · exact Or.inr (Or.inr h)

theorem subnqn_of_mem_keys {subsys : AcSubsystem} (h : key ∈ subsys.keys) : key.subnqn = subsys.nqn := by
  obtain ⟨page, -, rfl⟩ := List.mem_map.mp h
  rfl

theorem cachedKeys_cons (subsys : AcSubsystem) (cache : List AcSubsystem) :
    cachedKeys (subsys :: cache) = subsys.keys ++ cachedKeys cache := List.flatMap_cons

/-- The marks after an entry was saved. -/
theorem mem_marks_saveLogPage (h : UniqueKeys cache) :
    (key, st) ∈ marks (saveLogPage e cache) ↔
      (key ≠ e.key ∧ (key, st) ∈ marks cache) ∨
        (key = e.key ∧ st = if e.key ∈ cachedKeys cache then .valid else .new) := by
  induction cache with
  | nil => simp [saveLogPage, marks, savePage, cachedKeys, LogEntry.key]
  | cons subsys cache ih =>
    have hrest : UniqueKeys cache := h.sublist (List.sublist_cons_self _ _)
    have hnames := h.names
    rw [List.map_cons, List.nodup_cons] at hnames
    have hcached : e.key ∈ cachedKeys (subsys :: cache) ↔ e.key ∈ subsys.keys ∨ e.key ∈ cachedKeys cache := by
      rw [cachedKeys_cons, List.mem_append]
    unfold saveLogPage
    simp only [hcached]
    rw [marks_cons, List.mem_append]
    by_cases hn : subsys.nqn = e.subnqn
    · have hkey : e.keyFor subsys.nqn = e.key := by rw [hn, LogEntry.key]
      have hnot : e.key ∉ cachedKeys cache := by
        intro hmem
        obtain ⟨other, hin, hmem⟩ := List.mem_flatMap.mp hmem
        exact hnames.1 (List.mem_map.mpr ⟨other, hin, (subnqn_of_mem_keys hmem).symm.trans hn.symm⟩)
      have hother : (key, st) ∈ marks cache → key ≠ e.key := fun hmem heq => hnot (heq ▸ mem_cachedKeys_of_mark hmem)
      rw [if_pos hn, marks_cons, List.mem_append, mem_marks_savePage (h.keys subsys List.mem_cons_self), hkey]
      simp only [hnot, or_false]
      constructor
      · rintro ((⟨hne, hmem⟩ | hsaved) | hmem)
        · exact Or.inl ⟨hne, Or.inl hmem⟩
        · exact Or.inr hsaved
        · exact Or.inl ⟨hother hmem, Or.inr hmem⟩
      · rintro (⟨hne, hmem | hmem⟩ | hsaved)
        · exact Or.inl (Or.inl ⟨hne, hmem⟩)
        · exact Or.inr hmem
        · exact Or.inl (Or.inr hsaved)
    · have hnot : e.key ∉ subsys.keys := fun hmem => hn (subnqn_of_mem_keys hmem).symm
      have hother : (key, st) ∈ subsys.logpageList.map (fun page => (page.e.keyFor subsys.nqn, page.valid)) → key ≠ e.key := by
        rintro hmem rfl
        obtain ⟨page, hpage, heq⟩ := List.mem_map.mp hmem
        exact hnot (List.mem_map.mpr ⟨page, hpage, (Prod.mk.inj heq).1⟩)
      rw [if_neg hn, marks_cons, List.mem_append, ih hrest]
      simp only [hnot, false_or]
      constructor
      · rintro (hmem | ⟨hne, hmem⟩ | hsaved)
        · exact Or.inl ⟨hother hmem, Or.inl hmem⟩
        · exact Or.inl ⟨hne, Or.inr hmem⟩
        · exact Or.inr hsaved
      · rintro (⟨hne, hmem | hmem⟩ | hsaved)
        · exact Or.inl hmem
        · exact Or.inr (Or.inl ⟨hne, hmem⟩)
        · exact Or.inr (Or.inr hsaved)

/-- The mark that a key of a log gets: it is new if it was not kept and the log has it once. -/
def markOf (log : List LogEntry) (cache : List AcSubsystem) (key : PageKey) : PageState :=
  if key ∈ cachedKeys cache ∨ 2 ≤ (log.map LogEntry.key).count key then .valid else .new

theorem markOf_eq_new {log : List LogEntry} :
    .new = markOf log cache key ↔ ¬(key ∈ cachedKeys cache ∨ 2 ≤ (log.map LogEntry.key).count key) := by
  unfold markOf
  split
  · rename_i hc
    exact ⟨fun h => PageState.noConfusion h, fun h => absurd hc h⟩
  · rename_i hc
    exact ⟨fun _ => hc, fun _ => rfl⟩

theorem markOf_ne_deleted (log : List LogEntry) (cache : List AcSubsystem) (key : PageKey) : markOf log cache key ≠ .deleted := by
  unfold markOf
  split
  · exact PageState.noConfusion
  · exact PageState.noConfusion

/-- The marks after a log was saved. -/
theorem mem_marks_saveLogPages {log : List LogEntry} (h : UniqueKeys cache) :
    (key, st) ∈ marks (saveLogPages log cache) ↔
      (key ∉ log.map LogEntry.key ∧ (key, st) ∈ marks cache) ∨
        (key ∈ log.map LogEntry.key ∧ st = markOf log cache key) := by
  induction log generalizing cache with
  | nil => simp [saveLogPages]
  | cons e log ih =>
    have hstep : saveLogPages (e :: log) cache = saveLogPages log (saveLogPage e cache) := rfl
    rw [hstep, ih (h.save e), mem_marks_saveLogPage h, List.map_cons, List.mem_cons]
    by_cases hlog : key ∈ log.map LogEntry.key
    · -- the rest of the log has the key: what it makes of the mark stays
      have hcount := List.one_le_count_iff.mpr hlog
      have hmark : markOf log (saveLogPage e cache) key = markOf (e :: log) cache key := by
        simp only [markOf, mem_cachedKeys_save, List.map_cons, List.count_cons]
        by_cases hkey : key = e.key
        · simp [hkey, hkey ▸ hcount]
        · simp [hkey, Ne.symm hkey]
      simp [hlog, hmark]
    · have hcount : (log.map LogEntry.key).count key = 0 := List.count_eq_zero.mpr hlog
      rcases eq_or_ne key e.key with rfl | hkey
      · have hmark : markOf (e :: log) cache e.key = if e.key ∈ cachedKeys cache then PageState.valid else PageState.new := by
          have honce : ¬ 2 ≤ ((e :: log).map LogEntry.key).count e.key := by
            rw [List.map_cons, List.count_cons_self, hcount]
            decide
          simp only [markOf, honce, or_false]
        simp [hlog, hmark]
      · simp [hlog, hkey]

/-- A page that is kept was stored under the NQN it came with. -/
def Homed (cache : List AcSubsystem) : Prop := ∀ subsys ∈ cache, ∀ page ∈ subsys.logpageList, page.e.subnqn = subsys.nqn

/-- What a round finds: the pages of the last log, each once, and none that is gone. -/
structure Kept (w : Watch) : Prop where
  unique : UniqueKeys w.cache
  homed : Homed w.cache
  keys : ∀ key, key ∈ cachedKeys w.cache ↔ key ∈ w.last.map LogEntry.key
  live : ∀ subsys ∈ w.cache, ∀ page ∈ subsys.logpageList, page.valid ≠ .deleted

theorem Kept.start : Kept .start where
  unique := ⟨List.nodup_nil, fun _ h => absurd h List.not_mem_nil⟩
  homed _ h := absurd h List.not_mem_nil
  keys _ := Iff.rfl
  live _ h := absurd h List.not_mem_nil

theorem Homed.invalidate (h : Homed cache) : Homed (invalidateLogPages cache) := by
  intro subsys hmem page hpage
  obtain ⟨before, hbefore, rfl⟩ := List.mem_map.mp hmem
  obtain ⟨old, hold, rfl⟩ := List.mem_map.mp hpage
  exact h before hbefore old hold

/-- A page of a subsystem after an entry was saved has the texts of one from before, or of the entry. -/
theorem mem_savePage_page {pages : List AcLogpage} {page : AcLogpage} (h : page ∈ savePage e pages) :
    page.e = e ∨ ∃ old ∈ pages, page.e = old.e := by
  induction pages with
  | nil => exact Or.inl (congrArg AcLogpage.e (List.mem_singleton.mp h))
  | cons first pages ih =>
    unfold savePage at h
    split at h
    · rcases List.mem_cons.mp h with rfl | h
      · exact Or.inr ⟨first, List.mem_cons_self, rfl⟩
      · exact Or.inr ⟨page, List.mem_cons_of_mem _ h, rfl⟩
    · rcases List.mem_cons.mp h with rfl | h
      · exact Or.inr ⟨page, List.mem_cons_self, rfl⟩
      · rcases ih h with heq | ⟨old, hold, heq⟩
        · exact Or.inl heq
        · exact Or.inr ⟨old, List.mem_cons_of_mem _ hold, heq⟩

theorem Homed.save (h : Homed cache) (e : LogEntry) : Homed (saveLogPage e cache) := by
  intro subsys hmem page hpage
  rcases mem_saveLogPage hmem with hmem | ⟨pages, rfl, hpages⟩
  · exact h subsys hmem page hpage
  · rcases mem_savePage_page hpage with heq | ⟨old, hold, heq⟩
    · rw [heq]
    · rcases hpages with rfl | hpages
      · cases hold
      · rw [heq]
        exact h _ hpages old hold

theorem Homed.saves (h : Homed cache) (log : List LogEntry) : Homed (saveLogPages log cache) := by
  induction log generalizing cache with
  | nil => exact h
  | cons e log ih => exact ih (h.save e)

/-! ## What is printed -/

/-- The pages with a mark. -/
theorem mem_marks {key : PageKey} {st : PageState} : (key, st) ∈ marks cache ↔
    ∃ subsys ∈ cache, ∃ page ∈ subsys.logpageList, page.e.keyFor subsys.nqn = key ∧ page.valid = st := by
  simp only [marks, List.mem_flatMap, List.mem_map, Prod.mk.injEq]

/-- The keys of the pages with a mark. -/
def markedKeys (st : PageState) (cache : List AcSubsystem) : List PageKey :=
  ((marks cache).filter (fun mark => decide (mark.2 = st))).map Prod.fst

theorem mem_markedKeys : key ∈ markedKeys st cache ↔ (key, st) ∈ marks cache := by
  simp only [markedKeys, List.mem_map, List.mem_filter, decide_eq_true_eq]
  constructor
  · rintro ⟨mark, ⟨hmem, rfl⟩, rfl⟩
    exact hmem
  · intro hmem
    exact ⟨(key, st), ⟨hmem, rfl⟩, rfl⟩

theorem markedKeys_cons (st : PageState) (subsys : AcSubsystem) (cache : List AcSubsystem) :
    markedKeys st (subsys :: cache) = markedKeys st [subsys] ++ markedKeys st cache := by
  simp only [markedKeys, marks_cons, List.filter_append, List.map_append]
  simp [marks]

theorem newKeys_append (out out' : List Report) : newKeys (out ++ out') = newKeys out ++ newKeys out' := List.filterMap_append

theorem deletedKeys_append (out out' : List Report) : deletedKeys (out ++ out') = deletedKeys out ++ deletedKeys out' :=
  List.filterMap_append

theorem newKeys_pages {nqn : String} {pages : List AcLogpage} (h : ∀ page ∈ pages, page.e.subnqn = nqn) :
    newKeys (pages.filterMap (reportPage nqn)) = markedKeys .new [{ nqn := nqn, logpageList := pages }] := by
  induction pages with
  | nil => rfl
  | cons page pages ih =>
    have hrest := ih (fun page hpage => h page (List.mem_cons_of_mem _ hpage))
    have hkey : page.e.key = page.e.keyFor nqn := by rw [LogEntry.key, h page List.mem_cons_self]
    simp only [newKeys, markedKeys, marks, List.flatMap_cons, List.flatMap_nil, List.append_nil] at hrest ⊢
    cases hv : page.valid <;> simp [reportPage, hv, Report.newKey?, List.filterMap_cons, hkey, hrest]

theorem deletedKeys_pages (nqn : String) (pages : List AcLogpage) :
    deletedKeys (pages.filterMap (reportPage nqn)) = markedKeys .deleted [{ nqn := nqn, logpageList := pages }] := by
  induction pages with
  | nil => rfl
  | cons page pages ih =>
    simp only [deletedKeys, markedKeys, marks, List.flatMap_cons, List.flatMap_nil, List.append_nil] at ih ⊢
    cases hv : page.valid <;> simp [reportPage, hv, Report.deletedKey?, List.filterMap_cons, ih]

/-- That a subsystem is left without pages is no page. -/
theorem keys_reportSubsystem (subsys : AcSubsystem) :
    newKeys (reportSubsystem subsys) = newKeys (subsys.logpageList.filterMap (reportPage subsys.nqn)) ∧
      deletedKeys (reportSubsystem subsys) = deletedKeys (subsys.logpageList.filterMap (reportPage subsys.nqn)) := by
  rw [reportSubsystem, newKeys_append, deletedKeys_append]
  split
  · exact ⟨List.append_nil _, List.append_nil _⟩
  · exact ⟨List.append_nil _, List.append_nil _⟩

theorem newKeys_printed (h : Homed cache) : newKeys (printed true cache) = markedKeys .new cache := by
  induction cache with
  | nil => rfl
  | cons subsys cache ih =>
    have hrest := ih (fun subsys hmem => h subsys (List.mem_cons_of_mem _ hmem))
    have hfirst := newKeys_pages (h subsys List.mem_cons_self)
    rw [← (keys_reportSubsystem subsys).1] at hfirst
    rw [markedKeys_cons, ← hrest, ← hfirst, ← newKeys_append]
    rfl

theorem deletedKeys_printed (cache : List AcSubsystem) : deletedKeys (printed true cache) = markedKeys .deleted cache := by
  induction cache with
  | nil => rfl
  | cons subsys cache ih =>
    have hfirst := deletedKeys_pages subsys.nqn subsys.logpageList
    rw [← (keys_reportSubsystem subsys).2] at hfirst
    rw [markedKeys_cons, ← ih, ← hfirst, ← deletedKeys_append]
    rfl

/-- The keys of what is kept are distinct. -/
theorem nodup_cachedKeys (h : UniqueKeys cache) : (cachedKeys cache).Nodup := by
  induction cache with
  | nil => exact List.nodup_nil
  | cons subsys cache ih =>
    have hrest : UniqueKeys cache := h.sublist (List.sublist_cons_self _ _)
    have hnames := h.names
    rw [List.map_cons, List.nodup_cons] at hnames
    rw [cachedKeys_cons, List.nodup_append]
    refine ⟨h.keys subsys List.mem_cons_self, ih hrest, ?_⟩
    rintro key hkey other hother rfl
    obtain ⟨subsys', hmem, hkey'⟩ := List.mem_flatMap.mp hother
    exact hnames.1 (List.mem_map.mpr ⟨subsys', hmem, (subnqn_of_mem_keys hkey').symm.trans (subnqn_of_mem_keys hkey)⟩)

theorem nodup_markedKeys (h : UniqueKeys cache) (st : PageState) : (markedKeys st cache).Nodup := by
  have hkeys := nodup_cachedKeys h
  rw [← fst_marks] at hkeys
  exact hkeys.sublist (List.filter_sublist.map _)

/-! ## Rounds -/

theorem marks_invalidate : (key, st) ∈ marks (invalidateLogPages cache) ↔ key ∈ cachedKeys cache ∧ st = .deleted := by
  have hmap : marks (invalidateLogPages cache) = (cachedKeys cache).map (fun key => (key, PageState.deleted)) := by
    simp only [marks, invalidateLogPages, cachedKeys, AcSubsystem.keys, List.flatMap_map, List.map_flatMap, List.map_map,
      Function.comp_def]
  simp only [hmap, List.mem_map, Prod.mk.injEq]
  constructor
  · rintro ⟨k, hk, rfl, rfl⟩
    exact ⟨hk, rfl⟩
  · rintro ⟨hk, rfl⟩
    exact ⟨key, hk, rfl, rfl⟩

/-- `malloc` does not fail where the log that is fetched needs it. -/
def Watch.Provided (w : Watch) (call : Call) : Prop := ∀ log, call.fetch = some log → Stored log w.cache

/-- The merge of a log that there is memory for. -/
theorem Kept.merged {w : Watch} (h : Kept w) {log : List (LogEntry × Memory)} (hs : Stored log w.cache) :
    saveLogPagesIn log (invalidateLogPages w.cache) = saveLogPages (log.map Prod.fst) (invalidateLogPages w.cache) :=
  saveLogPagesIn_stored h.unique.invalidate (stored_invalidate.mpr hs)

/-- A subsystem that a call leaves is one of the merged cache without its deleted pages. -/
theorem mem_left {hdr : Bool} {subsys : AcSubsystem} (h : subsys ∈ cleanupLogPages (printLogPages hdr cache)) :
    ∃ before ∈ cache, subsys =
      { before with logpageList := before.logpageList.filter (fun page => decide (page.valid ≠ .deleted)) } := by
  have hof : ∀ subsys ∈ Monitor.cleanupLogPages cache, ∃ before ∈ cache, subsys =
      { before with logpageList := before.logpageList.filter (fun page => decide (page.valid ≠ .deleted)) } := by
    intro subsys hmem
    obtain ⟨before, hbefore, rfl⟩ := List.mem_map.mp hmem
    exact ⟨before, hbefore, rfl⟩
  cases hdr with
  | false => exact hof subsys h
  | true =>
    have hclean : subsys ∈ NvmeDem.cleanupLogPages cache := monitor_cleanup_cleanup cache ▸ h
    exact hof subsys (List.mem_filter.mp hclean).1

/-- What a call leaves of a merged cache. -/
theorem kept_left {last : List LogEntry} {hdr : Bool} (hu : UniqueKeys cache) (hh : Homed cache)
    (hlive : ∀ key, key ∈ liveKeys cache ↔ key ∈ last.map LogEntry.key) :
    Kept { cache := cleanupLogPages (printLogPages hdr cache), last := last } where
  unique := by
    cases hdr with
    | false => exact hu.shrink (shrunk_map shrunk_unmarked _)
    | true =>
      show UniqueKeys (Monitor.cleanupLogPages (NvmeDem.cleanupLogPages cache))
      rw [monitor_cleanup_cleanup]
      exact hu.cleanup
  homed := by
    intro subsys hmem page hpage
    obtain ⟨before, hbefore, rfl⟩ := mem_left hmem
    exact hh before hbefore page (List.mem_of_mem_filter hpage)
  keys := by
    intro key
    rw [← hlive]
    cases hdr with
    | false => exact iff_of_eq (congrArg (key ∈ ·) (cachedKeys_monitor_cleanup cache))
    | true =>
      show key ∈ cachedKeys (Monitor.cleanupLogPages (NvmeDem.cleanupLogPages cache)) ↔ _
      rw [monitor_cleanup_cleanup, cachedKeys_cleanup]
  live := by
    intro subsys hmem page hpage
    obtain ⟨before, -, rfl⟩ := mem_left hmem
    exact of_decide_eq_true (List.mem_filter.mp hpage).2

/-- Where no page is marked deleted all pages are live. -/
theorem liveKeys_of_live (h : ∀ subsys ∈ cache, ∀ page ∈ subsys.logpageList, page.valid ≠ .deleted) :
    liveKeys cache = cachedKeys cache := by
  refine List.flatMap_congr (fun subsys hmem => ?_)
  rw [List.filter_eq_self.mpr (fun page hpage => decide_eq_true (h subsys hmem page hpage))]
  rfl

theorem Kept.next {w : Watch} (h : Kept w) {call : Call} (hp : w.Provided call) : Kept (w.next call) := by
  obtain ⟨fetch, hdr⟩ := call
  cases fetch with
  | none =>
    have hkept : Kept { cache := cleanupLogPages (printLogPages hdr w.cache), last := w.last } := by
      refine kept_left h.unique h.homed (fun key => ?_)
      rw [liveKeys_of_live h.live]
      exact h.keys key
    exact hkept
  | some log =>
    have hmerged := h.merged (hp log rfl)
    have hkept : Kept { cache := cleanupLogPages (printLogPages hdr (saveLogPages (log.map Prod.fst) (invalidateLogPages w.cache)))
                        last := log.map Prod.fst } :=
      kept_left (h.unique.invalidate.saves _) (h.homed.invalidate.saves _) (mem_liveKeys_merged _ w.cache)
    rw [← hmerged] at hkept
    exact hkept

/-- When a call prints the differences: there is memory for what is new and for a header, and the log has no new page twice;
or nothing differs and there is no header to print with. Without a log, no page may be marked new by the log before, or there is
no header. -/
def Watch.Meets (w : Watch) (call : Call) : Prop :=
  match call.fetch with
  | some log =>
    (call.hdr = true ∧ Stored log w.cache ∧
        ∀ key, key ∉ w.last.map LogEntry.key → ((log.map Prod.fst).map LogEntry.key).count key ≤ 1) ∨
      (call.hdr = false ∧ ∀ key, key ∈ (log.map Prod.fst).map LogEntry.key ↔ key ∈ w.last.map LogEntry.key)
  | none => call.hdr = false ∨ ∀ subsys ∈ w.cache, ∀ page ∈ subsys.logpageList, page.valid ≠ .new

/-- A call for which there is memory, from what it finds. -/
theorem Kept.differences {w : Watch} (h : Kept w) {log : List (LogEntry × Memory)} (hs : Stored log w.cache) :
    Differences w.last (log.map Prod.fst) (w.out ⟨some log, true⟩) ↔
      ∀ key, key ∉ w.last.map LogEntry.key → ((log.map Prod.fst).map LogEntry.key).count key ≤ 1 := by
  have hout : w.out ⟨some log, true⟩ =
      printed true (saveLogPages (log.map Prod.fst) (invalidateLogPages w.cache)) := by
    rw [← h.merged hs]
    rfl
  have hnew (key : PageKey) : key ∈ newKeys (w.out ⟨some log, true⟩) ↔
      key ∈ (log.map Prod.fst).map LogEntry.key ∧ key ∉ w.last.map LogEntry.key ∧
        ((log.map Prod.fst).map LogEntry.key).count key ≤ 1 := by
    rw [hout, newKeys_printed (h.homed.invalidate.saves _), mem_markedKeys, mem_marks_saveLogPages h.unique.invalidate,
      marks_invalidate, ← h.keys, markOf_eq_new, cachedKeys_invalidate, not_or, Nat.not_le, Nat.lt_succ_iff]
    constructor
    · rintro (⟨-, -, hst⟩ | hk)
      · cases hst
      · exact hk
    · exact Or.inr
  have hdeleted (key : PageKey) : key ∈ deletedKeys (w.out ⟨some log, true⟩) ↔
      key ∈ w.last.map LogEntry.key ∧ key ∉ (log.map Prod.fst).map LogEntry.key := by
    rw [hout, deletedKeys_printed, mem_markedKeys, mem_marks_saveLogPages h.unique.invalidate, marks_invalidate, ← h.keys]
    constructor
    · rintro (⟨hlog, hkey, -⟩ | ⟨-, hst⟩)
      · exact ⟨hkey, hlog⟩
      · exact absurd hst.symm (markOf_ne_deleted _ _ key)
    · rintro ⟨hkey, hlog⟩
      exact Or.inl ⟨hlog, hkey, rfl⟩
  constructor
  · intro hd key hlast
    by_cases hkey : key ∈ (log.map Prod.fst).map LogEntry.key
    · exact ((hnew key).mp ((hd.new key).mpr ⟨hkey, hlast⟩)).2.2
    · rw [List.count_eq_zero.mpr hkey]
      exact Nat.zero_le 1
  · intro honce
    refine ⟨fun key => ?_, ?_, hdeleted⟩
    · rw [hnew]
      exact ⟨fun hk => ⟨hk.1, hk.2.1⟩, fun hk => ⟨hk.1, hk.2, honce key hk.2⟩⟩
    · rw [hout, newKeys_printed (h.homed.invalidate.saves _)]
      exact nodup_markedKeys (h.unique.invalidate.saves _) _

/-- When memory runs out the rest of the log is lost, and the subsystem that was being made stays bare. -/
theorem saveLogPagesIn_prefix (log : List (LogEntry × Memory)) (cache : List AcSubsystem) :
    ∃ (saved : List LogEntry) (bare : List AcSubsystem), (∀ subsys ∈ bare, subsys.logpageList = []) ∧
      saveLogPagesIn log cache = saveLogPages saved cache ++ bare := by
  induction log generalizing cache with
  | nil => exact ⟨[], [], fun _ h => absurd h List.not_mem_nil, (List.append_nil _).symm⟩
  | cons entry log ih =>
    obtain ⟨e, mem⟩ := entry
    have hstop : ∃ (saved : List LogEntry) (bare : List AcSubsystem), (∀ subsys ∈ bare, subsys.logpageList = []) ∧
        cache = saveLogPages saved cache ++ bare := ⟨[], [], fun _ h => absurd h List.not_mem_nil, (List.append_nil _).symm⟩
    have hgo : ∃ (saved : List LogEntry) (bare : List AcSubsystem), (∀ subsys ∈ bare, subsys.logpageList = []) ∧
        saveLogPagesIn log (saveLogPage e cache) = saveLogPages saved cache ++ bare := by
      obtain ⟨saved, bare, hbare, heq⟩ := ih (saveLogPage e cache)
      exact ⟨e :: saved, bare, hbare, heq⟩
    unfold saveLogPagesIn
    split
    · split
      · exact hgo
      · exact hstop
    · split
      · split
        · exact hgo
        · exact ⟨[], [{ nqn := e.subnqn, logpageList := [] }], fun subsys h => congrArg AcSubsystem.logpageList (List.mem_singleton.mp h), rfl⟩
      · exact hstop

theorem mem_cachedKeys_saves {log : List LogEntry} (h : key ∈ cachedKeys cache) : key ∈ cachedKeys (saveLogPages log cache) := by
  induction log generalizing cache with
  | nil => exact h
  | cons e log ih => exact ih ((mem_cachedKeys_save e cache key).mpr (Or.inr h))

/-- When memory runs out for a log a page of it that was not kept is not printed. -/
theorem Kept.not_differences {w : Watch} (h : Kept w) {log : List (LogEntry × Memory)} (hs : ¬Stored log w.cache) :
    ¬Differences w.last (log.map Prod.fst) (w.out ⟨some log, true⟩) := by
  intro hd
  obtain ⟨key, hkey, hlost⟩ := saveLogPagesIn_lost h.unique.invalidate (fun hc => hs (stored_invalidate.mp hc))
  obtain ⟨saved, bare, hbare, heq⟩ := saveLogPagesIn_prefix log (invalidateLogPages w.cache)
  have hlast : key ∉ w.last.map LogEntry.key := by
    intro hmem
    rw [← h.keys, ← cachedKeys_invalidate] at hmem
    refine hlost ?_
    rw [heq, cachedKeys, List.flatMap_append]
    exact List.mem_append_left _ (mem_cachedKeys_saves hmem)
  have hhomed : Homed (saveLogPagesIn log (invalidateLogPages w.cache)) := by
    intro subsys hmem page hpage
    rw [heq] at hmem
    rcases List.mem_append.mp hmem with hmem | hmem
    · exact h.homed.invalidate.saves saved subsys hmem page hpage
    · rw [hbare subsys hmem] at hpage
      cases hpage
  have hprinted := (hd.new key).mpr ⟨hkey, hlast⟩
  have hmark : key ∈ markedKeys .new (saveLogPagesIn log (invalidateLogPages w.cache)) := newKeys_printed hhomed ▸ hprinted
  exact hlost (mem_cachedKeys_of_mark (mem_markedKeys.mp hmark))

theorem markedKeys_eq_nil : markedKeys st cache = [] ↔ ∀ subsys ∈ cache, ∀ page ∈ subsys.logpageList, page.valid ≠ st := by
  rw [List.eq_nil_iff_forall_not_mem]
  constructor
  · intro h subsys hmem page hpage hst
    exact h _ (mem_markedKeys.mpr (mem_marks.mpr ⟨subsys, hmem, page, hpage, rfl, hst⟩))
  · intro h key hkey
    obtain ⟨subsys, hmem, page, hpage, -, hst⟩ := mem_marks.mp (mem_markedKeys.mp hkey)
    exact h subsys hmem page hpage hst

/-- Nothing is printed: as it should be when the logs have the same pages. -/
theorem differences_nil {last current : List LogEntry} :
    Differences last current [] ↔ ∀ key, key ∈ current.map LogEntry.key ↔ key ∈ last.map LogEntry.key := by
  constructor
  · intro hd key
    constructor
    · intro hkey
      by_contra hlast
      exact absurd ((hd.new key).mpr ⟨hkey, hlast⟩) List.not_mem_nil
    · intro hkey
      by_contra hlog
      exact absurd ((hd.deleted key).mpr ⟨hkey, hlog⟩) List.not_mem_nil
  · intro hsame
    refine ⟨fun key => ⟨fun h => absurd h List.not_mem_nil, fun h => absurd ((hsame key).mp h.1) h.2⟩, List.nodup_nil,
      fun key => ⟨fun h => absurd h List.not_mem_nil, fun h => absurd ((hsame key).mpr h.1) h.2⟩⟩

/-- What a call of a monitor that keeps the last log prints. -/
theorem Kept.reports_iff {w : Watch} (h : Kept w) (call : Call) : w.ReportsDifferences call ↔ w.Meets call := by
  obtain ⟨fetch, hdr⟩ := call
  cases fetch with
  | none =>
    cases hdr with
    | false => exact ⟨fun _ => Or.inl rfl, fun _ => ⟨rfl, rfl⟩⟩
    | true =>
      show newKeys (printed true w.cache) = [] ∧ deletedKeys (printed true w.cache) = [] ↔ true = false ∨ _
      rw [newKeys_printed h.homed, deletedKeys_printed, markedKeys_eq_nil, markedKeys_eq_nil]
      exact ⟨fun hp => Or.inr hp.1, fun hm => ⟨hm.resolve_left (by decide), h.live⟩⟩
  | some log =>
    cases hdr with
    | false =>
      refine differences_nil.trans ⟨fun hsame => Or.inr ⟨rfl, hsame⟩, ?_⟩
      rintro (⟨hhdr, -⟩ | ⟨-, hsame⟩)
      · cases hhdr
      · exact hsame
    | true =>
      show Differences w.last (log.map Prod.fst) (w.out ⟨some log, true⟩) ↔ _
      constructor
      · intro hd
        by_cases hs : Stored log w.cache
        · exact Or.inl ⟨rfl, hs, (h.differences hs).mp hd⟩
        · exact absurd hd (h.not_differences hs)
      · rintro (⟨-, hs, honce⟩ | ⟨hhdr, -⟩)
        · exact (h.differences hs).mpr honce
        · cases hhdr

/-- In every state that calls lead to for which there is memory, the next call prints the differences exactly when `Meets` holds
of it: a call that does is one for which there is memory. -/
theorem report_updates_differences {w : Watch}
    (h : Run (fun (call : Call) (w w' : Watch) => w' = w.next call) Watch.Provided .start w) (call : Call) :
    w.ReportsDifferences call ↔ w.Meets call :=
  (Run.invariant h Kept.start (fun _ _ _ hk hp hs => hs ▸ hk.next hp)).reports_iff call

/-- A call that gets all the memory it asks for. -/
def Call.Supplied (call : Call) : Prop := call.hdr = true ∧ ∀ log, call.fetch = some log → ∀ entry ∈ log, entry.2 = enough

theorem Call.Supplied.provided {call : Call} (h : call.Supplied) (w : Watch) : w.Provided call := by
  intro log hfetch before rest e mem hlog _ _
  have hmem : mem = enough := h.2 log hfetch (e, mem) (hlog ▸ List.mem_append_right _ List.mem_cons_self)
  rw [hmem]
  exact ⟨rfl, fun _ _ => rfl⟩

/-- A log with one page. -/
def onePageCall : Call := { fetch := some [(onePageLog, enough)], hdr := true }

theorem onePageCall_supplied : onePageCall.Supplied := by
  refine ⟨rfl, fun log hlog entry hentry => ?_⟩
  rw [← Option.some.inj hlog, List.mem_singleton] at hentry
  rw [hentry]

/-- The log is read twice, and then no more: nothing is printed. -/
theorem report_updates_differences_settled :
    ((Watch.start.next onePageCall).next onePageCall).ReportsDifferences { fetch := none, hdr := true } :=
  (report_updates_differences
    (.next (.next .start (onePageCall_supplied.provided _) rfl) (onePageCall_supplied.provided _) rfl) _).mpr
    (Or.inr (by decide))

/-- The log is read once, and then no more: its page is printed as new once more. -/
theorem report_updates_again :
    ¬∀ (w : Watch) (call : Call), Run (fun (call : Call) (w w' : Watch) => w' = w.next call) (fun _ call => call.Supplied) .start w →
      call.Supplied → w.ReportsDifferences call := by
  intro hall
  have hfailed : Call.Supplied { fetch := none, hdr := true } := ⟨rfl, fun log hlog => absurd hlog (by simp)⟩
  have hnew := (hall (Watch.start.next onePageCall) _ (.next .start onePageCall_supplied rfl) hfailed).1
  exact absurd hnew (by decide)

end Monitor

end NvmeDem
