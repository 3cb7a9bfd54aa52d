import NvmeDem.Theorems.Marking
import NvmeDem.Theorems.Monitor

/-!
# The connecting client and the controllers that the kernel has

The client takes a page for connected when the directory shows its controller, the page is valid, and no other page stands
before it for the same controller. A page that is new is never taken for connected, whatever the kernel has.
-/

namespace NvmeDem

namespace Client

/-! ## What a log leaves to be marked -/

/-- The entries of a log up to the first that there is no memory for. -/
def savedLog : List (LogEntry × Memory) → List AcSubsystem → List LogEntry
  | [], _ => []
  | (e, mem) :: log, cache =>
    if (e.key ∈ cachedKeys cache ∨ mem.page = true) ∧ (e.subnqn ∈ cache.map AcSubsystem.nqn ∨ mem.subsys = true) then
      e :: savedLog log (NvmeDem.saveLogPage e cache)
    else []

theorem marks_bare (cache : List AcSubsystem) (nqn : String) :
    Monitor.marks (cache ++ [{ nqn := nqn, logpageList := [] }]) = Monitor.marks cache := by
  simp [Monitor.marks]

/-- The pages of a merge are those of the log that was saved. -/
theorem saveLogPagesIn_saved (log : List (LogEntry × Memory)) {cache : List AcSubsystem} (h : UniqueKeys cache) :
    UniqueKeys (saveLogPagesIn log cache) ∧
      Monitor.marks (saveLogPagesIn log cache) = Monitor.marks (NvmeDem.saveLogPages (savedLog log cache) cache) := by
  induction log generalizing cache with
  | nil => exact ⟨h, rfl⟩
  | cons entry log ih =>
    obtain ⟨e, mem⟩ := entry
    have hgo : UniqueKeys (saveLogPagesIn log (NvmeDem.saveLogPage e cache)) ∧
        Monitor.marks (saveLogPagesIn log (NvmeDem.saveLogPage e cache)) =
          Monitor.marks (NvmeDem.saveLogPages (e :: savedLog log (NvmeDem.saveLogPage e cache)) cache) := ih (h.save e)
    rw [saveLogPagesIn, savedLog]
    cases hfind : cache.find? (fun subsys => subsys.nqn == e.subnqn) with
    | some subsys =>
      obtain ⟨hname, hany⟩ := page_of_find h.names hfind
      have hsaved : (subsys.logpageList.any (fun page => matchLogpage page e) || mem.page) = true ↔
          (e.key ∈ cachedKeys cache ∨ mem.page = true) ∧ (e.subnqn ∈ cache.map AcSubsystem.nqn ∨ mem.subsys = true) := by
        rw [Bool.or_eq_true, hany]
        exact ⟨fun hor => ⟨hor, Or.inl hname⟩, And.left⟩
      dsimp only
      by_cases hstored : (subsys.logpageList.any (fun page => matchLogpage page e) || mem.page) = true
      · rw [if_pos hstored, if_pos (hsaved.mp hstored)]
        exact hgo
      · rw [if_neg hstored, if_neg (fun hs => hstored (hsaved.mpr hs))]
        exact ⟨h, rfl⟩
    | none =>
      obtain ⟨hname, hkey⟩ := new_of_find hfind
      simp only [hkey, hname, false_or]
      by_cases hsubsys : mem.subsys = true
      · rw [if_pos hsubsys]
        by_cases hpage : mem.page = true
        · rw [if_pos hpage, if_pos ⟨hpage, hsubsys⟩]
          exact hgo
        · rw [if_neg hpage, if_neg (fun hs => hpage hs.1)]
          refine ⟨⟨?_, ?_⟩, marks_bare cache e.subnqn⟩
          · rw [List.map_append]
            refine List.nodup_append.mpr ⟨h.names, List.nodup_singleton _, fun a ha b hb hab => hname ?_⟩
            have hb' : b = e.subnqn := List.mem_singleton.mp hb
            rwa [← hb', ← hab]
          · intro subsys hmem
            rcases List.mem_append.mp hmem with hmem | hmem
            · exact h.keys subsys hmem
            · rw [List.mem_singleton.mp hmem]
              exact List.nodup_nil
      · rw [if_neg hsubsys, if_neg (fun hs => hsubsys hs.2)]
        exact ⟨h, rfl⟩

/-- A subsystem after a merge was kept before, or the log names it. -/
theorem mem_names_saveLogPagesIn {log : List (LogEntry × Memory)} {cache : List AcSubsystem} {nqn : String}
    (h : nqn ∈ (saveLogPagesIn log cache).map AcSubsystem.nqn) :
    nqn ∈ cache.map AcSubsystem.nqn ∨ nqn ∈ log.map (fun entry => entry.1.subnqn) := by
  induction log generalizing cache with
  | nil => exact Or.inl h
  | cons entry log ih =>
    obtain ⟨e, mem⟩ := entry
    have hgo : nqn ∈ (saveLogPagesIn log (NvmeDem.saveLogPage e cache)).map AcSubsystem.nqn →
        nqn ∈ cache.map AcSubsystem.nqn ∨ nqn ∈ ((e, mem) :: log).map (fun entry => entry.1.subnqn) := by
      intro hmem
      rw [List.map_cons, List.mem_cons]
      rcases ih hmem with hmem | hmem
      · exact ((mem_names_save e cache nqn).mp hmem).elim (fun heq => Or.inr (Or.inl heq)) Or.inl
      · exact Or.inr (Or.inr hmem)
    unfold saveLogPagesIn at h
    split at h
    · split at h
      · exact hgo h
      · exact Or.inl h
    · split at h
      · split at h
        · exact hgo h
        · rw [List.map_append, List.mem_append] at h
          exact h.imp_right (fun hmem => List.mem_cons.mpr (Or.inl (List.mem_singleton.mp hmem)))
      · exact Or.inl h

/-- The pages of a log and the controllers: no two pages are for one controller, and a page for a controller that the kernel has
was kept before, or is there twice, with no other page kept for the controller. -/
structure Told (kernel : Finset KernelCtrl) (old new : List PageKey) : Prop where
  apart : ∀ key ∈ new, ∀ key' ∈ new, requestFor key = requestFor key' → key = key'
  known : ∀ key ∈ new, requestFor key ∈ kernel →
    (key ∈ old ∨ 2 ≤ new.count key) ∧ ∀ key' ∈ old, requestFor key' = requestFor key → key' = key

/-- What an update is to find. When the fetch fails, a page for a controller that the kernel has is to be valid. -/
def Update.Told (u : Update) (cache : List Subsystem) : Prop :=
  match u.fetch with
  | none => ∀ key st, (key, st) ∈ Monitor.marks (plain cache) → requestFor key ∈ u.kernel → st = .valid
  | some log =>
    Client.Told u.kernel (cachedKeys (plain cache))
      ((savedLog log (NvmeDem.invalidateLogPages (plain cache))).map LogEntry.key)

/-- What the directory is read with: the marks after a merge. -/
structure Merged (kernel : Finset KernelCtrl) (cache : List AcSubsystem) : Prop where
  unique : UniqueKeys cache
  apart : ∀ key ∈ liveKeys cache, ∀ key' ∈ liveKeys cache, requestFor key = requestFor key' → key = key'
  known : ∀ key ∈ liveKeys cache, requestFor key ∈ kernel →
    ∀ key' st, (key', st) ∈ Monitor.marks cache → requestFor key' = requestFor key → key' = key ∧ st ≠ .new

theorem mem_liveKeys {cache : List AcSubsystem} {key : PageKey} :
    key ∈ liveKeys cache ↔ ∃ st : PageState, (key, st) ∈ Monitor.marks cache ∧ st ≠ .deleted := by
  unfold liveKeys
  simp only [Monitor.mem_marks, List.mem_flatMap, List.mem_map, List.mem_filter, decide_eq_true_eq]
  constructor
  · rintro ⟨subsys, hmem, page, ⟨hpage, hlive⟩, hkey⟩
    exact ⟨page.valid, ⟨subsys, hmem, page, hpage, hkey, rfl⟩, hlive⟩
  · rintro ⟨_, ⟨subsys, hmem, page, hpage, hkey, rfl⟩, hlive⟩
    exact ⟨subsys, hmem, page, ⟨hpage, hlive⟩, hkey⟩

/-- What is kept from an update to the next. -/
structure Settled (s : State) : Prop where
  unique : UniqueKeys (plain s.cache)
  apart : ∀ key ∈ cachedKeys (plain s.cache), ∀ key' ∈ cachedKeys (plain s.cache), requestFor key = requestFor key' → key = key'
  asked : ∀ subsys ∈ s.cache, ∀ page ∈ subsys.logpageList, page.connected = false → page.request subsys.nqn ∉ s.kernel

theorem liveKeys_subset {cache : List AcSubsystem} {key : PageKey} (h : key ∈ liveKeys cache) : key ∈ cachedKeys cache := by
  obtain ⟨st, hmark, -⟩ := mem_liveKeys.mp h
  exact Monitor.mem_cachedKeys_of_mark hmark

/-- The marks of a merge: a page that is live is one of the log, and is new only if it was not kept and is there once. -/
theorem mark_of_merged {old : List AcSubsystem} (h : UniqueKeys old) {log : List LogEntry} {key : PageKey} {st : PageState}
    (hmark : (key, st) ∈ Monitor.marks (NvmeDem.saveLogPages log (NvmeDem.invalidateLogPages old))) :
    (key ∈ cachedKeys old ∧ st = .deleted) ∨
      (key ∈ log.map LogEntry.key ∧ (key ∈ cachedKeys old ∨ 2 ≤ (log.map LogEntry.key).count key → st = .valid)) := by
  rw [Monitor.mem_marks_saveLogPages h.invalidate, Monitor.marks_invalidate] at hmark
  rcases hmark with ⟨-, hold⟩ | ⟨hlog, hst⟩
  · exact Or.inl hold
  · refine Or.inr ⟨hlog, fun hknown => ?_⟩
    rw [hst, Monitor.markOf, cachedKeys_invalidate, if_pos hknown]

theorem Settled.merged {s : State} (h : Settled s) {u : Update} (htold : u.Told s.cache) :
    Merged u.kernel (plain (fetchLogPages u.flag u.fetch s.cache)) := by
  obtain ⟨kernel, flag, fetch, dirs, junk⟩ := u
  cases fetch with
  | none =>
    refine ⟨h.unique, fun key hkey key' hkey' => h.apart key (liveKeys_subset hkey) key' (liveKeys_subset hkey'), ?_⟩
    intro key hkey hkernel key' st hmark heq
    obtain rfl := h.apart key' (Monitor.mem_cachedKeys_of_mark hmark) key (liveKeys_subset hkey) heq
    refine ⟨rfl, ?_⟩
    rw [htold key' st hmark hkernel]
    exact PageState.noConfusion
  | some log =>
    obtain ⟨hapart, hknown⟩ := htold
    have hplain : plain (fetchLogPages flag (some log) s.cache) =
        saveLogPagesIn log (NvmeDem.invalidateLogPages (plain s.cache)) := by
      rw [fetchLogPages, plain_saveLogPages, plain_invalidate]
    obtain ⟨hunique, hmarks⟩ := saveLogPagesIn_saved log h.unique.invalidate
    generalize savedLog log (NvmeDem.invalidateLogPages (plain s.cache)) = saved at hapart hknown hmarks
    generalize saveLogPagesIn log (NvmeDem.invalidateLogPages (plain s.cache)) = merged at hplain hunique hmarks
    have hlive : ∀ key ∈ liveKeys merged, key ∈ saved.map LogEntry.key := by
      intro key hkey
      obtain ⟨st, hmark, hne⟩ := mem_liveKeys.mp hkey
      rw [hmarks] at hmark
      rcases mark_of_merged h.unique hmark with ⟨-, hst⟩ | ⟨hlog, -⟩
      · exact absurd hst hne
      · exact hlog
    rw [hplain]
    refine ⟨hunique, fun key hkey key' hkey' => hapart key (hlive key hkey) key' (hlive key' hkey'), ?_⟩
    intro key hkey hkernel key' st hmark heq
    obtain ⟨hsettled, honly⟩ := hknown key (hlive key hkey) hkernel
    rw [hmarks] at hmark
    rcases mark_of_merged h.unique hmark with ⟨hold, rfl⟩ | ⟨hlog, hst⟩
    · exact ⟨honly key' hold heq, PageState.noConfusion⟩
    · obtain rfl := hapart key' hlog key (hlive key hkey) heq
      refine ⟨rfl, ?_⟩
      rw [hst hsettled]
      exact PageState.noConfusion

/-! ## After the directory was read -/

/-- A page that is not marked deleted is connected exactly when the kernel has its controller. -/
def Marked (kernel : Finset KernelCtrl) (cache : List Subsystem) : Prop :=
  ∀ subsys ∈ cache, ∀ page ∈ subsys.logpageList, page.valid ≠ .deleted →
    (page.connected = true ↔ page.request subsys.nqn ∈ kernel)

/-- In a merged cache the controller of a live page is ready. -/
theorem Merged.ready {kernel : Finset KernelCtrl} {cache : List AcSubsystem} (h : Merged kernel cache) {subsys : AcSubsystem}
    (hmem : subsys ∈ cache) {key : PageKey} (hkey : key ∈ liveKeys cache) (hnqn : key.subnqn = subsys.nqn)
    (hkernel : requestFor key ∈ kernel) : Ready (requestFor key) subsys.logpageList := by
  have hsame : ∀ page ∈ subsys.logpageList, ctrlMatches (requestFor key) page = true →
      page.e.keyFor subsys.nqn = key ∧ page.valid ≠ .new := by
    intro page hpage hmatch
    refine h.known key hkey hkernel _ _ (Monitor.mem_marks.mpr ⟨subsys, hmem, page, hpage, rfl, rfl⟩) ?_
    exact (ctrlMatches_iff hnqn).mp hmatch
  constructor
  · have hdistinct : subsys.logpageList.Pairwise (fun page page' => page.e.keyFor subsys.nqn ≠ page'.e.keyFor subsys.nqn) :=
      List.pairwise_map.mp (h.unique.keys subsys hmem)
    refine hdistinct.imp_of_mem (fun {page page'} hpage hpage' hne hmatch => ?_)
    rw [Bool.eq_false_iff]
    intro hmatch'
    exact hne ((hsame page hpage hmatch).1.trans (hsame page' hpage' hmatch').1.symm)
  · exact fun page hpage hmatch => (hsame page hpage hmatch).2

theorem Merged.marked {kernel : Finset KernelCtrl} {cache cache' : List Subsystem} (h : Merged kernel (plain cache))
    (hlooked : List.Forall₂ (Looked kernel) cache cache') : Marked kernel cache' := by
  intro subsys' hmem' page hpage hlive
  obtain ⟨subsys, hmem, hnqn, ctrls, hctrls, hpages⟩ := Keyed.forall₂_mem_right hlooked hmem'
  rw [hpages] at hpage
  rw [hnqn]
  have hplain : subsys.unmark.logpageList.map Page.toAcLogpage = subsys.plain.logpageList := plain_unmark _
  obtain ⟨old, hold, heq, -⟩ := mem_markPages hpage
  have hkey : page.e.keyFor subsys.nqn ∈ liveKeys (plain cache) := by
    have hpage' : page.toAcLogpage ∈ subsys.plain.logpageList := by
      rw [← hplain, heq]
      exact List.mem_map_of_mem hold
    exact mem_liveKeys.mpr
      ⟨page.valid, Monitor.mem_marks.mpr ⟨subsys.plain, List.mem_map_of_mem hmem, page.toAcLogpage, hpage', rfl, rfl⟩, hlive⟩
  refine connected_iff hctrls ?_ (fun hkernel => ?_) hpage
  · intro page hpage
    obtain ⟨_, -, rfl⟩ := List.mem_map.mp hpage
    rfl
  · rw [hplain]
    exact h.ready (List.mem_map_of_mem hmem) hkey rfl hkernel

/-! ## Updates -/

/-- The subsystems whose directory may be read. -/
def Update.names (u : Update) (cache : List Subsystem) : List String :=
  cache.map Subsystem.nqn ++ (u.fetch.getD []).map (fun entry => entry.1.subnqn)

/-- An update that can open and read the directory for each subsystem, and whose log agrees with what the kernel has. -/
structure Foreseen (u : Update) (cache : List Subsystem) : Prop where
  opened : none ∉ u.dirs
  enough : (u.names cache).length ≤ u.dirs.length
  named : ∀ ctrl ∈ u.kernel, Named ctrl
  legible : ∀ ctrl ∈ u.kernel, ctrl.subnqn ∈ u.names cache → Legible ctrl
  told : u.Told cache

theorem names_plain (cache : List Subsystem) : (plain cache).map AcSubsystem.nqn = cache.map Subsystem.nqn := by
  rw [plain, List.map_map]
  rfl

theorem mem_names {u : Update} {cache : List Subsystem} {nqn : String}
    (h : nqn ∈ (fetchLogPages u.flag u.fetch cache).map Subsystem.nqn) : nqn ∈ u.names cache := by
  obtain ⟨kernel, flag, fetch, dirs, junk⟩ := u
  cases fetch with
  | none => exact List.mem_append_left _ h
  | some log =>
    rw [fetchLogPages, ← names_plain, plain_saveLogPages] at h
    rcases mem_names_saveLogPagesIn h with h | h
    · refine List.mem_append_left _ ?_
      rw [names_plain] at h
      obtain ⟨subsys, hmem, rfl⟩ := List.mem_map.mp h
      obtain ⟨old, hold, rfl⟩ := List.mem_map.mp hmem
      exact List.mem_map.mpr ⟨old, hold, rfl⟩
    · exact List.mem_append_right _ h

/-- An update that is foreseen reads the directory to its end, and takes for connected what the kernel has. -/
theorem Settled.marked {s : State} (h : Settled s) {u : Update} (hshown : u.Shown) (hf : Foreseen u s.cache) :
    ∃ cache, u.marked s.cache = .ok cache ∧ Marked u.kernel cache := by
  have hmerged := h.merged hf.told
  have hnames : ((fetchLogPages u.flag u.fetch s.cache).map Subsystem.nqn).Nodup := by
    rw [← names_plain]
    exact hmerged.unique.names
  have hlen : (fetchLogPages u.flag u.fetch s.cache).length ≤ u.dirs.length := by
    have hle := (hnames.subperm (fun nqn hnqn => mem_names hnqn)).length_le
    rw [List.length_map] at hle
    exact hle.trans hf.enough
  obtain ⟨cache, hcache, hlooked⟩ := markConnected_shows hf.opened hlen hshown hf.named
    (fun ctrl hctrl hmem => hf.legible ctrl hctrl (mem_names hmem)) u.junk
  exact ⟨cache, hcache, hmerged.marked hlooked⟩

theorem mem_cleanupLogPages {cache : List Subsystem} {subsys : Subsystem} (h : subsys ∈ cleanupLogPages cache) :
    ∃ before ∈ cache, subsys.nqn = before.nqn ∧
      ∀ page ∈ subsys.logpageList, page ∈ before.logpageList ∧ page.valid ≠ .deleted := by
  obtain ⟨before, hbefore, rfl⟩ := List.mem_map.mp (List.mem_filter.mp h).1
  refine ⟨before, hbefore, rfl, fun page hpage => ?_⟩
  obtain ⟨hpage, hlive⟩ := List.mem_filter.mp hpage
  exact ⟨hpage, of_decide_eq_true hlive⟩

/-- The walk over the directories drops pages that are marked deleted, and no others. -/
theorem markConnected_plain {dirs : List (Option (List DirEntry))} {buf : Buffers} {cache cache' : List Subsystem}
    (h : markConnected dirs buf cache = .ok cache') (hunique : UniqueKeys (plain cache)) :
    UniqueKeys (plain cache') ∧ liveKeys (plain cache') = liveKeys (plain cache) := by
  have hplain := plain_markConnected dirs buf cache
  rw [h, markConnected_eq] at hplain
  split at hplain
  · rw [Except.ok.inj hplain]
    exact ⟨hunique.shrink (shrunk_markConnected _ _), liveKeys_markConnected _ _⟩
  · cases hplain

theorem Settled.processUpdates {s : State} (h : Settled s) {u : Update} (hshown : u.Shown) (hf : Foreseen u s.cache)
    {cache : List Subsystem} (hcache : u.marked s.cache = .ok cache) :
    Settled { cache := cleanupLogPages cache, kernel := u.kernel } := by
  have hmerged := h.merged hf.told
  obtain ⟨hunique, hlive⟩ := markConnected_plain hcache hmerged.unique
  obtain ⟨_, hcache', hmarked⟩ := h.marked hshown hf
  obtain rfl := Except.ok.inj (hcache'.symm.trans hcache)
  refine ⟨?_, ?_, ?_⟩
  · rw [plain_cleanup]
    exact hunique.cleanup
  · rw [plain_cleanup, cachedKeys_cleanup, hlive]
    exact hmerged.apart
  · intro subsys hmem page hpage hflag hkernel
    obtain ⟨before, hbefore, hnqn, hpages⟩ := mem_cleanupLogPages hmem
    obtain ⟨hpage, hne⟩ := hpages page hpage
    rw [hnqn] at hkernel
    rw [(hmarked before hbefore page hpage hne).mpr hkernel] at hflag
    cases hflag

/-! ## Connecting -/

/-- The pages with the names of their subsystems. -/
def entries (cache : List Subsystem) : List (String × Page) :=
  cache.flatMap (fun subsys => subsys.logpageList.map (fun page => (subsys.nqn, page)))

theorem mem_entries {cache : List Subsystem} {nqn : String} {page : Page} :
    (nqn, page) ∈ entries cache ↔ ∃ subsys ∈ cache, page ∈ subsys.logpageList ∧ subsys.nqn = nqn := by
  simp only [entries, List.mem_flatMap, List.mem_map, Prod.mk.injEq]
  constructor
  · rintro ⟨subsys, hmem, page, hpage, hnqn, rfl⟩
    exact ⟨subsys, hmem, hpage, hnqn⟩
  · rintro ⟨subsys, hmem, hpage, hnqn⟩
    exact ⟨subsys, hmem, page, hpage, hnqn, rfl⟩

theorem keys_entries (cache : List Subsystem) :
    (entries cache).map (fun entry => entry.2.e.keyFor entry.1) = cachedKeys (plain cache) := by
  simp only [entries, cachedKeys, plain, List.map_flatMap, List.flatMap_map, List.map_map, Function.comp_def]
  simp only [AcSubsystem.keys, Subsystem.plain, List.map_map, Function.comp_def]

/-- What is asked for a subsystem: nothing, or the controller of a page that was not connected. -/
theorem connectPages_cases (opens : Nat → Bool) (nqn : String) (i : Nat) (pages : List Page) :
    ((connectPages opens nqn i pages).1 = none ∧ (connectPages opens nqn i pages).2.2 = pages) ∨
      ∃ before page after, pages = before ++ page :: after ∧ page.connected = false ∧
        (connectPages opens nqn i pages).1 = some (page.request nqn) ∧
        (connectPages opens nqn i pages).2.2 = before ++ { page with connected := true } :: after := by
  induction pages generalizing i with
  | nil => exact Or.inl ⟨rfl, rfl⟩
  | cons page pages ih =>
    have hskip : ∀ j, ((connectPages opens nqn j pages).1 = none ∧ page :: (connectPages opens nqn j pages).2.2 = page :: pages) ∨
        ∃ before page' after, page :: pages = before ++ page' :: after ∧ page'.connected = false ∧
          (connectPages opens nqn j pages).1 = some (page'.request nqn) ∧
          page :: (connectPages opens nqn j pages).2.2 = before ++ { page' with connected := true } :: after := by
      intro j
      rcases ih j with ⟨hnone, hsame⟩ | ⟨before, page', after, hpages, hflag, hreq, hnew⟩
      · exact Or.inl ⟨hnone, by rw [hsame]⟩
      · exact Or.inr ⟨page :: before, page', after, by rw [hpages, List.cons_append], hflag, hreq,
          by rw [hnew, List.cons_append]⟩
    rw [connectPages]
    by_cases hconnected : page.connected = true
    · rw [if_pos hconnected]
      exact hskip i
    · rw [if_neg hconnected]
      by_cases hopen : opens i = true
      · rw [if_pos hopen]
        exact Or.inr ⟨[], page, pages, rfl, Bool.eq_false_iff.mpr hconnected, rfl, rfl⟩
      · rw [if_neg hopen]
        exact hskip (i + 1)

theorem connectOneSubsystem_cases (opens : Nat → Bool) (i : Nat) (cache : List Subsystem) :
    ((connectOneSubsystem opens i cache).1 = none ∧ (connectOneSubsystem opens i cache).2 = cache) ∨
      ∃ before nqn page after, entries cache = before ++ (nqn, page) :: after ∧ page.connected = false ∧
        (connectOneSubsystem opens i cache).1 = some (page.request nqn) ∧
        entries (connectOneSubsystem opens i cache).2 = before ++ (nqn, { page with connected := true }) :: after ∧
        plain (connectOneSubsystem opens i cache).2 = plain cache := by
  induction cache generalizing i with
  | nil => exact Or.inl ⟨rfl, rfl⟩
  | cons subsys cache ih =>
    rw [connectOneSubsystem]
    rcases connectPages_cases opens subsys.nqn i subsys.logpageList with
      ⟨hnone, hsame⟩ | ⟨before, page, after, hpages, hflag, hreq, hnew⟩
    · simp only [hnone, hsame, Option.isSome_none, Bool.false_eq_true, if_false]
      rcases ih (connectPages opens subsys.nqn i subsys.logpageList).2.1 with ⟨hreq, hcache⟩ |
        ⟨before, nqn, page, after, hentries, hflag, hreq, hnew, hplain⟩
      · exact Or.inl ⟨hreq, by rw [hcache]⟩
      · refine Or.inr
          ⟨subsys.logpageList.map (fun page => (subsys.nqn, page)) ++ before, nqn, page, after, ?_, hflag, hreq, ?_, ?_⟩
        · rw [entries, List.flatMap_cons, List.append_assoc, ← hentries]
          rfl
        · rw [entries, List.flatMap_cons, List.append_assoc, ← hnew]
          rfl
        · exact congrArg (subsys.plain :: ·) hplain
    · simp only [hreq, hnew, Option.isSome_some, if_true]
      refine Or.inr ⟨before.map (fun page => (subsys.nqn, page)), subsys.nqn, page,
        after.map (fun page => (subsys.nqn, page)) ++ entries cache, ?_, hflag, rfl, ?_, ?_⟩
      · rw [entries, List.flatMap_cons, hpages, List.map_append, List.append_assoc]
        rfl
      · rw [entries, List.flatMap_cons, List.map_append, List.append_assoc]
        rfl
      · show _ :: plain cache = subsys.plain :: plain cache
        rw [Subsystem.plain, Subsystem.plain, hpages, List.map_append, List.map_append]
        rfl

/-- The kernel is not asked for a controller that it has. -/
theorem Settled.asks {s : State} (h : Settled s) {opens : Nat → Bool} {req : KernelCtrl}
    (hreq : (Client.connectOneSubsystem opens 0 s.cache).1 = some req) : req ∉ s.kernel := by
  rcases connectOneSubsystem_cases opens 0 s.cache with ⟨hnone, -⟩ | ⟨before, nqn, page, after, hentries, hflag, hsome, -, -⟩
  · rw [hnone] at hreq
    cases hreq
  · rw [hsome] at hreq
    obtain rfl := Option.some.inj hreq
    have hmem : (nqn, page) ∈ entries s.cache := hentries ▸ List.mem_append_right _ List.mem_cons_self
    obtain ⟨subsys, hsubsys, hpage, rfl⟩ := mem_entries.mp hmem
    exact h.asked subsys hsubsys page hpage hflag

theorem Settled.connectOneSubsystem {s : State} (h : Settled s) (opens : Nat → Bool) (accepted : Bool) :
    Settled
      { cache := (Client.connectOneSubsystem opens 0 s.cache).2
        kernel :=
          if accepted then (Client.connectOneSubsystem opens 0 s.cache).1.elim s.kernel (fun ctrl => insert ctrl s.kernel)
          else s.kernel } := by
  rcases connectOneSubsystem_cases opens 0 s.cache with
    ⟨hnone, hsame⟩ | ⟨before, nqn, page, after, hentries, -, hreq, hnew, hplain⟩
  · rw [hnone, hsame]
    simp only [Option.elim_none, ite_self]
    exact h
  · rw [hreq]
    refine ⟨by rw [hplain]; exact h.unique, by rw [hplain]; exact h.apart, ?_⟩
    intro subsys hsubsys other hother hflag
    have hmem : (subsys.nqn, other) ∈ before ++ (nqn, { page with connected := true }) :: after :=
      hnew ▸ mem_entries.mpr ⟨subsys, hsubsys, hother, rfl⟩
    -- A page that is still not connected stands elsewhere, and so it is for another controller.
    have helse : (subsys.nqn, other) ∈ before ++ after := by
      rcases List.mem_append.mp hmem with hmem | hmem
      · exact List.mem_append_left _ hmem
      · rcases List.mem_cons.mp hmem with heq | hmem
        · rw [(Prod.mk.inj heq).2] at hflag
          cases hflag
        · exact List.mem_append_right _ hmem
    have hold : (subsys.nqn, other) ∈ entries s.cache := by
      rw [hentries]
      rcases List.mem_append.mp helse with hmem | hmem
      · exact List.mem_append_left _ hmem
      · exact List.mem_append_right _ (List.mem_cons_of_mem _ hmem)
    have hkeys : ((before ++ (nqn, page) :: after).map (fun entry => entry.2.e.keyFor entry.1)).Nodup := by
      rw [← hentries, keys_entries]
      exact Monitor.nodup_cachedKeys h.unique
    rw [List.map_append, List.map_cons, List.nodup_middle, List.nodup_cons, ← List.map_append] at hkeys
    have hne : other.request subsys.nqn ≠ page.request nqn := by
      intro heq
      have hpage : (nqn, page) ∈ entries s.cache := hentries ▸ List.mem_append_right _ List.mem_cons_self
      have hin : ∀ nqn page, (nqn, page) ∈ entries s.cache → page.e.keyFor nqn ∈ cachedKeys (plain s.cache) :=
        fun nqn page hentry => by
          rw [← keys_entries]
          exact List.mem_map.mpr ⟨(nqn, page), hentry, rfl⟩
      have hsame := h.apart _ (hin _ _ hold) _ (hin _ _ hpage) heq
      exact hkeys.1 (hsame ▸ List.mem_map.mpr ⟨(subsys.nqn, other), helse, rfl⟩)
    obtain ⟨before', hbefore', hother', hnqn⟩ := mem_entries.mp hold
    have hnot : other.request subsys.nqn ∉ s.kernel := hnqn ▸ h.asked before' hbefore' other hother' hflag
    show other.request subsys.nqn ∉ if accepted then insert (page.request nqn) s.kernel else s.kernel
    split
    · rw [Finset.mem_insert, not_or]
      exact ⟨hne, hnot⟩
    · exact hnot

/-! ## Runs -/

theorem Settled.empty (kernel : Finset KernelCtrl) : Settled { cache := [], kernel := kernel } where
  unique := ⟨List.nodup_nil, fun _ h => absurd h List.not_mem_nil⟩
  apart _ h := absurd h List.not_mem_nil
  asked _ h := absurd h List.not_mem_nil

/-- The updates are foreseen. -/
def Allowed (s : State) (op : Op) : Prop :=
  match op with
  | .processUpdates u => Foreseen u s.cache
  | _ => True

theorem Settled.step {op : Op} {s s' : State} (h : Settled s) (ha : Allowed s op) (hs : step op s s') : Settled s' := by
  cases op with
  | processUpdates u =>
    obtain ⟨hshown, cache, hcache, rfl⟩ := hs
    exact h.processUpdates hshown ha hcache
  | connectOneSubsystem opens accepted =>
    obtain rfl := hs
    exact h.connectOneSubsystem opens accepted
  | cleanupDq =>
    obtain rfl := hs
    exact .empty s.kernel

/-- Whatever the client asks the kernel for next, the kernel does not have it. -/
def AsksNew (s : State) : Prop :=
  ∀ (opens : Nat → Bool) (req : KernelCtrl), (Client.connectOneSubsystem opens 0 s.cache).1 = some req → req ∉ s.kernel

/-- In every state that foreseen updates lead to, with any requests to the kernel between them, the client asks for nothing that
the kernel has; and a further update that is foreseen takes for connected what the kernel has. -/
theorem connects_once {kernel : Finset KernelCtrl} {s : State} (hrun : Run step Allowed (.start kernel) s) :
    AsksNew s ∧
      ∀ u : Update, u.Shown → Foreseen u s.cache →
        ∃ cache : List Subsystem, u.marked s.cache = .ok cache ∧ Marked u.kernel cache := by
  have hsettled : Settled s := hrun.invariant (.empty kernel) (fun _ _ _ hi ha hs => hi.step ha hs)
  exact ⟨fun _ _ hreq => hsettled.asks hreq, fun _ hshown hf => hsettled.marked hshown hf⟩

/-- The controller of a page. -/
def pageCtrl : KernelCtrl := { subnqn := "nqn.a", trtype := "rdma", traddr := "10.0.0.1", trsvcid := "4420" }

/-- The page is in the log, and the kernel's directory is as it is. -/
def pageUpdate (kernel : Finset KernelCtrl) (dir : List DirEntry) : Update where
  kernel := kernel
  flag _ := false
  fetch := some [(onePageLog, enough)]
  dirs := [some dir, some dir]
  junk := noBuffers

theorem shows_none : Shows ∅ [] := ⟨[], fun _ => by simp, .nil⟩

theorem shows_pageCtrl : Shows {pageCtrl} [files pageCtrl "nvme0"] :=
  ⟨[pageCtrl], fun _ => by simp, .cons rfl .nil⟩

theorem pageUpdate_shown {kernel : Finset KernelCtrl} {dir : List DirEntry} (h : Shows kernel dir) :
    (pageUpdate kernel dir).Shown := by
  intro dir' hmem
  have heq : dir' = dir := by simpa [pageUpdate] using hmem
  rwa [heq]

theorem pageCtrl_legible : Named pageCtrl ∧ Legible pageCtrl :=
  ⟨by unfold Named; decide, by decide, by decide, by decide, by decide⟩

/-- The cache with the page after its first update, before and after it is asked for. -/
def pageCache (connected : Bool) : List Subsystem :=
  [{ nqn := "nqn.a", logpageList := [{ e := onePageLog, valid := .new, connected := connected }] }]

/-- The page alone, which may have been kept. -/
theorem told_page {kernel : Finset KernelCtrl} {old : List PageKey} (h : ∀ key ∈ old, key = onePageLog.key)
    (hkept : pageCtrl ∈ kernel → onePageLog.key ∈ old) : Told kernel old [onePageLog.key] where
  apart key hkey key' hkey' _ := (List.mem_singleton.mp hkey).trans (List.mem_singleton.mp hkey').symm
  known key hkey hkernel := by
    obtain rfl := List.mem_singleton.mp hkey
    exact ⟨Or.inl (hkept hkernel), fun key' hold _ => h key' hold⟩

/-- A page is connected, and the log is read again. -/
theorem connects_once_again :
    AsksNew { cache := pageCache true, kernel := {pageCtrl} } ∧
      ∃ cache : List Subsystem, (pageUpdate {pageCtrl} [files pageCtrl "nvme0"]).marked (pageCache true) = .ok cache ∧
        Marked {pageCtrl} cache := by
  have hfirst : Allowed (.start ∅) (.processUpdates (pageUpdate ∅ [])) :=
    ⟨by decide, by decide, fun _ h => absurd h (Finset.notMem_empty _), fun _ h => absurd h (Finset.notMem_empty _),
      told_page (fun _ h => absurd h List.not_mem_nil) (fun h => absurd h (Finset.notMem_empty _))⟩
  have hupdate : step (.processUpdates (pageUpdate ∅ [])) (.start ∅) { cache := pageCache false, kernel := ∅ } :=
    ⟨pageUpdate_shown shows_none, _, rfl, rfl⟩
  have hallowed : Allowed { cache := pageCache false, kernel := ∅ } (.connectOneSubsystem (fun _ => true) true) := trivial
  have hconnect : step (.connectOneSubsystem (fun _ => true) true)
      { cache := pageCache false, kernel := ∅ }
      { cache := pageCache true, kernel := {pageCtrl} } := rfl
  have hsecond : Foreseen (pageUpdate {pageCtrl} [files pageCtrl "nvme0"]) (pageCache true) := by
    refine ⟨by decide, by decide, fun ctrl h => ?_, fun ctrl h _ => ?_, ?_⟩
    · exact Finset.mem_singleton.mp h ▸ pageCtrl_legible.1
    · exact Finset.mem_singleton.mp h ▸ pageCtrl_legible.2
    · exact told_page (fun _ h => List.mem_singleton.mp h) (fun _ => List.mem_singleton_self _)
  have hrun : Run step Allowed (.start ∅) { cache := pageCache true, kernel := {pageCtrl} } :=
    .next (.next .start hfirst hupdate) hallowed hconnect
  obtain ⟨hasks, hmarks⟩ := connects_once hrun
  exact ⟨hasks, hmarks _ (pageUpdate_shown shows_pageCtrl) hsecond⟩

/-- The client is started anew when the kernel has a controller already: the client asks for it. -/
theorem connects_twice :
    ¬∀ (kernel : Finset KernelCtrl) (s : State), Run step (fun _ _ => True) (.start kernel) s → AsksNew s := by
  intro h
  have hmarked : (pageUpdate {pageCtrl} [files pageCtrl "nvme0"]).marked [] = .ok (pageCache false) := by decide
  have hupdate : step (.processUpdates (pageUpdate {pageCtrl} [files pageCtrl "nvme0"])) (.start {pageCtrl})
      { cache := pageCache false, kernel := {pageCtrl} } :=
    ⟨pageUpdate_shown shows_pageCtrl, _, hmarked, rfl⟩
  exact h _ _ (.next .start trivial hupdate) (fun _ => true) pageCtrl rfl (Finset.mem_singleton_self _)

end Client

end NvmeDem
