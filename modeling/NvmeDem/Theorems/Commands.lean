import NvmeDem.Lemmas.Cli
import NvmeDem.Theorems.Router

/-!
# What the commands of the client do

A verb and an object name at most one command, however they are shortened (`findVerb_eq_some_iff`). A command whose words are plain, and
whose URLs and bodies fit their buffers, does at the daemon what it is for, and nothing else (`main_does`). A URL that does not fit is cut: a
command that deletes then deletes what the names say that are left (`delete_cuts_names`), and so it deletes what it was told exactly if no
name was cut.
-/

namespace NvmeDem.Cli

open Rest Push Jansson

/-! ## Verbs -/

/-- Whether a verb of the table can do with this object. -/
def takesObject (object : Option String) (p : Verb) : Prop := ∀ name, p.object = some name → ∃ o, object = some o ∧ namesObject o name = true

/-- A verb of the table that these words name and this user may use. -/
structure Selects (verb : String) (object : Option String) (root : Bool) (p : Verb) : Prop where
  mem : p ∈ verbList
  verb : namesVerb verb p = true
  enabled : verbEnabled p root = true
  object : takesObject object p

theorem verbs_distinct : ∀ p ∈ verbList, ∀ q ∈ verbList, p.verb.toList.take 3 = q.verb.toList.take 3 →
    p.verb = q.verb ∧ (p.object = none ↔ q.object = none) := by
  decide +kernel

theorem objects_distinct : (verbList.map (fun p => (p.verb, p.object.map (fun o => o.toList.head?)))).Nodup := by decide +kernel

variable {verb : String} {object : Option String} {root : Bool} {p q : Verb}

theorem take_of_namesVerb (h : namesVerb verb p = true) : verb.toList.take 3 = p.verb.toList.take 3 := by
  simp only [namesVerb, Bool.or_eq_true, Bool.and_eq_true, beq_iff_eq] at h
  rcases h with rfl | ⟨-, h⟩
  · rfl
  · exact h

theorem head_of_namesObject {o name : String} (h : namesObject o name = true) : o.toList.head? = name.toList.head? := by
  simp only [namesObject, Bool.or_eq_true, Bool.and_eq_true, beq_iff_eq] at h
  rcases h with rfl | ⟨-, h⟩
  · rfl
  · exact h

theorem same_verb (hp : p ∈ verbList) (hq : q ∈ verbList) (h : namesVerb verb p = true) (h' : namesVerb verb q = true) :
    p.verb = q.verb ∧ (p.object = none ↔ q.object = none) :=
  verbs_distinct p hp q hq ((take_of_namesVerb h).symm.trans (take_of_namesVerb h'))

theorem verbEnabled_congr (h : p.verb = q.verb) : verbEnabled p root = verbEnabled q root := by
  unfold verbEnabled
  rw [h]

/-- No words name two verbs. -/
theorem Selects.unique (h : Selects verb object root p) (h' : Selects verb object root q) : p = q := by
  obtain ⟨hverb, hobject⟩ := same_verb h.mem h'.mem h.verb h'.verb
  refine List.inj_on_of_nodup_map objects_distinct h.mem h'.mem (Prod.ext hverb ?_)
  cases hp : p.object with
  | none => rw [hobject.mp hp]
  | some name =>
    obtain ⟨name', hq⟩ := Option.ne_none_iff_exists'.mp (fun hq => absurd (hobject.mpr hq) (by rw [hp]; simp))
    obtain ⟨o, ho, hname⟩ := h.object name hp
    obtain ⟨o', ho', hname'⟩ := h'.object name' hq
    obtain rfl : o = o' := Option.some.inj (ho.symm.trans ho')
    rw [hq, Option.map_some, Option.map_some, ← head_of_namesObject hname, ← head_of_namesObject hname']

theorem selects_of_findVerbLoop {l : List Verb} (hl : ∀ p ∈ l, p ∈ verbList) (h : findVerbLoop verb object root l = some p) :
    Selects verb object root p := by
  induction l with
  | nil => cases h
  | cons v l ih =>
    have hv := hl v List.mem_cons_self
    have hrest := ih (fun p hp => hl p (List.mem_cons_of_mem v hp))
    unfold findVerbLoop at h
    by_cases hnames : namesVerb verb v = true
    · by_cases henabled : verbEnabled v root = true
      · simp only [hnames, henabled, Bool.not_true, Bool.false_eq_true, if_false] at h
        cases hobject : v.object with
        | none =>
          simp only [hobject] at h
          obtain rfl := Option.some.inj h
          exact ⟨hv, hnames, henabled, fun name hname => absurd hname (by rw [hobject]; simp)⟩
        | some name =>
          cases object with
          | none => simp only [hobject, reduceCtorEq] at h
          | some o =>
            simp only [hobject] at h
            by_cases hname : namesObject o name = true
            · rw [if_pos hname] at h
              obtain rfl := Option.some.inj h
              refine ⟨hv, hnames, henabled, fun name' hname' => ⟨o, rfl, ?_⟩⟩
              obtain rfl : name = name' := Option.some.inj (hobject.symm.trans hname')
              exact hname
            · rw [if_neg hname] at h
              exact hrest h
      · simp only [hnames, henabled, Bool.not_true, Bool.false_eq_true, if_false, Bool.not_false, if_true, reduceCtorEq] at h
    · simp only [hnames, Bool.not_false, if_true] at h
      exact hrest h

theorem findVerbLoop_isSome {l : List Verb} (hl : ∀ p ∈ l, p ∈ verbList) (hp : p ∈ l) (h : Selects verb object root p) :
    (findVerbLoop verb object root l).isSome = true := by
  induction l with
  | nil => cases hp
  | cons v l ih =>
    have hv := hl v List.mem_cons_self
    have hrest := ih (fun p hp => hl p (List.mem_cons_of_mem v hp))
    unfold findVerbLoop
    by_cases hnames : namesVerb verb v = true
    · obtain ⟨hverb, hobject⟩ := same_verb hv h.mem hnames h.verb
      have henabled : verbEnabled v root = true := (verbEnabled_congr hverb).trans h.enabled
      simp only [hnames, henabled, Bool.not_true, Bool.false_eq_true, if_false]
      cases hname : v.object with
      | none => rfl
      | some name =>
        obtain ⟨name', hname'⟩ := Option.ne_none_iff_exists'.mp (fun hq => absurd (hobject.mpr hq) (by rw [hname]; simp))
        obtain ⟨o, rfl, -⟩ := h.object name' hname'
        dsimp only
        by_cases ho : namesObject o name = true
        · rw [if_pos ho]
          rfl
        · rw [if_neg ho]
          rcases List.mem_cons.mp hp with rfl | hp
          · obtain ⟨o', ho', hnamed⟩ := h.object name hname
            obtain rfl := Option.some.inj ho'
            exact absurd hnamed ho
          · exact hrest hp
    · simp only [hnames, Bool.not_false, if_true]
      rcases List.mem_cons.mp hp with rfl | hp
      · exact absurd h.verb hnames
      · exact hrest hp

/-- The search finds the verb that the words name, whichever of its forms they are. -/
theorem findVerb_eq_some_iff (verb : String) (object : Option String) (root : Bool) (p : Verb) :
    findVerb verb object root = some p ↔ Selects verb object root p := by
  unfold findVerb
  constructor
  · exact selects_of_findVerbLoop (fun _ h => h)
  · intro h
    obtain ⟨q, hq⟩ := Option.isSome_iff_exists.mp (findVerbLoop_isSome (fun _ h => h) h.mem h)
    rw [hq, (selects_of_findVerbLoop (fun _ h => h) hq).unique h]

/-! ## Requests -/

section

variable {http : HttpLib} {J : JsonLib} {w : World} {c : Client} {s : Server} {words : List String}

theorem handleHttpRequest_eq {req : HttpRequest} (hmethod : req.method ≠ .options) (hauth : req.authorized = true) {parts : List String}
    (huri : Rest.parseUri req.uri = .ok parts) (hne : req.uri ≠ "") :
    handleHttpRequest J w req s = routeParts req.method parts "" req.body >>= fun r => carryOut J w r s := by
  have hserved : ¬(req.uri = "" ∨ req.method = .options ∨ req.authorized = false) := by
    rintro (h | h | h)
    · exact hne h
    · exact hmethod h
    · rw [hauth] at h
      cases h
  unfold handleHttpRequest carryOut
  rw [route_eq "" hserved, huri]
  simp only [bind, Except.bind]
  cases routeParts req.method parts "" req.body <;> rfl

/-- The URL of a request, before it is cut. -/
theorem wish_url (c : Client) (entity : Entity) (wish : Wish) :
    wish.url (s!"{c.server}/{groups entity}") = "/".intercalate (c.server :: groups entity :: wish.parts) := by
  unfold Wish.url
  rcases wish.parts with _ | ⟨part, parts⟩
  · simp [String.intercalate_cons_cons, toString]
  · simp [String.intercalate_cons_cons, String.append_assoc, toString]

theorem isWord_groups (entity : Entity) : IsWord (groups entity) := by cases entity <;> decide

theorem serve_printed {entity : Entity} {wish : Wish} (hreaches : Reaches http c) (hmethod : wish.method ≠ .options)
    (hlen : wish.parts.length ≤ 5) (hwords : ∀ part ∈ wish.parts, IsWord part) :
    serve http J w (wish.printed s!"{c.server}/{groups entity}") s =
      (wish.routed entity >>= fun r => carryOut J w r s).map (fun s => (0, s)) := by
  have hparts : ∀ part ∈ groups entity :: wish.parts, IsWord part := List.forall_mem_cons.mpr ⟨isWord_groups entity, hwords⟩
  have hdepth : (groups entity :: wish.parts).length ≤ maxDepth := by
    rw [List.length_cons]
    exact Nat.le_trans (Nat.succ_le_succ hlen) (by decide)
  have hne : "/" ++ "/".intercalate (groups entity :: wish.parts) ≠ "" := by simp
  have hparse := parseUri_parts (List.cons_ne_nil _ _) hdepth hparts
  have hhandle := @handleHttpRequest_eq J w s
    { method := wish.method, uri := "/" ++ "/".intercalate (groups entity :: wish.parts), body := wish.body } hmethod rfl _ hparse hne
  unfold serve Wish.printed
  dsimp only
  rw [wish_url, hreaches _ (List.cons_ne_nil _ _) hparts]
  dsimp only
  rw [hhandle]
  rfl

/-- Requests that are made one after the other are carried out one after the other. -/
theorem serve_all {entity : Entity} {wishes : List Wish} {asks : List Routed} (hreaches : Reaches http c)
    (hshape : ∀ wish ∈ wishes, wish.method ≠ .options ∧ wish.parts.length ≤ 5 ∧ ∀ part ∈ wish.parts, IsWord part)
    (hroute : wishes.mapM (Wish.routed entity) = .ok asks) (ret : Int) :
    (wishes.map (Wish.printed s!"{c.server}/{groups entity}")).foldlM
        (fun (out : Int × Server) call => serve http J w call out.2) (ret, s) =
      (asks.foldlM (fun s r => carryOut J w r s) s).map (fun s => (if wishes = [] then ret else 0, s)) := by
  induction wishes generalizing asks s ret with
  | nil =>
    rw [List.mapM_nil] at hroute
    obtain rfl := Except.ok.inj hroute
    rfl
  | cons wish wishes ih =>
    obtain ⟨⟨hmethod, hlen, hwords⟩, hshape⟩ := List.forall_mem_cons.mp hshape
    have hserve := @serve_printed http J w c s entity wish hreaches hmethod hlen hwords
    rw [List.mapM_cons] at hroute
    cases hr : wish.routed entity with
    | error f =>
      rw [hr] at hroute
      cases hroute
    | ok r =>
      rw [hr] at hroute hserve
      cases hrs : wishes.mapM (Wish.routed entity) with
      | error f =>
        rw [hrs] at hroute
        cases hroute
      | ok rs =>
        rw [hrs] at hroute
        obtain rfl := Except.ok.inj hroute
        rw [List.map_cons, List.foldlM_cons, hserve, List.foldlM_cons, if_neg (List.cons_ne_nil _ _)]
        change (carryOut J w r s).map (fun s => ((0 : Int), s)) >>= _ = _
        cases carryOut J w r s with
        | error f => rfl
        | ok s' =>
          have hrest := ih hshape hrs (s := s') 0
          refine hrest.trans ?_
          rw [ite_self]
          rfl

/-! ## Runs of the client -/

theorem verbList_dem : ∀ v ∈ verbList, v.target = .dem → v.function = .demConfig ∨ v.function = .demShutdown := by decide +kernel

/-- The words behind the verb and the object are as many as the command reads. -/
theorem words_le {v : Verb} {rest : List String} {verb : String} (hv : v ∈ verbList)
    (hnum : validArguments (verb :: rest).length v.target v.numArgs = true) :
    v.function.words ≤ (rest.drop 1).length ∧ (rest = [] → v.target = .dem) := by
  have htable := (verbList_words v hv).1
  unfold validArguments at hnum
  rw [List.length_cons] at hnum
  rw [htable, List.length_drop]
  by_cases hdem : v.target = .dem
  · refine ⟨?_, fun _ => hdem⟩
    have hzero : v.numArgs.natAbs = 0 := by
      rw [← htable]
      rcases verbList_dem v hv hdem with h | h <;> rw [h] <;> rfl
    rw [hzero]
    exact Nat.zero_le _
  · rw [if_neg hdem] at hnum
    have hle : 2 + v.numArgs.natAbs ≤ rest.length + 1 := by
      split at hnum
      · exact of_decide_eq_true hnum
      · exact Nat.le_of_eq (of_decide_eq_true hnum)
    refine ⟨by omega, fun hnil => ?_⟩
    rw [hnil, List.length_nil] at hle
    omega

theorem length_cCut (n : Nat) (name : String) : (cCut n name).length = min n name.length := by
  unfold cCut
  rw [← String.length_toList, String.toList_ofList, List.length_take, String.length_toList]

theorem length_base (c : Client) (entity : Entity) : (c.base entity).length < urlSize := by
  unfold Client.base snprintf
  rw [length_cCut]
  have hsize : urlSize = 128 := rfl
  omega

/-- A command line with a verb and enough words comes to what its command does with the words. -/
theorem mainPlan_sends {v : Verb} {verb : String} {rest : List String} (hverb : findVerb verb rest.head? c.root = some v)
    (hnum : validArguments (verb :: rest).length v.target v.numArgs = true) :
    mainPlan c (verb :: rest) =
      (if v.function.asksFirst && c.prompt.cancels then .ok .nothing
        else sendAll (c.base v.target) (v.function.wishes (rest.drop 1)) v.function.deletes).map (fun plan => some (v, plan)) := by
  have hv : v ∈ verbList := (selects_of_findVerbLoop (fun _ h => h) hverb).mem
  obtain ⟨hwords, hdem⟩ := words_le hv hnum
  -- The commands of the daemon itself read no words.
  have hread : v.function.run c.prompt (c.base v.target) (if (verb :: rest).length ≤ 1 then verb :: rest else rest.drop 1) =
      v.function.run c.prompt (c.base v.target) (rest.drop 1) := by
    split
    · rename_i hle
      have hnil : rest = [] := List.eq_nil_of_length_eq_zero (by rw [List.length_cons] at hle; omega)
      rcases verbList_dem v hv (hdem hnil) with h | h <;> rw [h] <;> rfl
    · rfl
  have hrun := @run_eq (c.base v.target) c.prompt (rest.drop 1) v.function hwords (length_base c v.target)
  unfold mainPlan
  dsimp only
  rw [hverb]
  dsimp only
  rw [if_pos hnum, hread, hrun]
  generalize (if (v.function.asksFirst && c.prompt.cancels) = true then Except.ok Plan.nothing
    else sendAll (c.base v.target) (v.function.wishes (rest.drop 1)) v.function.deletes) = plan
  cases plan <;> rfl

theorem mainPlan_run {v : Verb} {verb : String} {rest : List String} (hverb : findVerb verb rest.head? c.root = some v)
    (hnum : validArguments (verb :: rest).length v.target v.numArgs = true)
    (hgo : v.function.asksFirst = true → c.prompt.cancels = false)
    (hbase : (s!"{c.server}/{groups v.target}").length < urlSize) :
    mainPlan c (verb :: rest) =
      (sendAll s!"{c.server}/{groups v.target}" (v.function.wishes (rest.drop 1)) v.function.deletes).map (fun plan => some (v, plan)) := by
  have hwhole : c.base v.target = s!"{c.server}/{groups v.target}" := by
    have htext : s!"http://{c.demServer}:{c.demPort}/{groups v.target}" = s!"{c.server}/{groups v.target}" := rfl
    unfold Client.base
    rw [htext, snprintf_of_lt hbase]
  have hcancel : (v.function.asksFirst && c.prompt.cancels) = false := by
    cases hask : v.function.asksFirst with
    | false => rfl
    | true => rw [hgo hask]; rfl
  rw [mainPlan_sends hverb hnum, hcancel, if_neg Bool.false_ne_true, hwhole]

theorem sendAll_fits {base : String} {wishes : List Wish} (ignores : Bool) (h : ∀ wish ∈ wishes, wish.Fits base) :
    sendAll base wishes ignores = .ok { calls := wishes.map (Wish.printed base), ignores := ignores } := by
  unfold sendAll
  rw [mapM_ok (fun wish hwish => (h wish hwish).send)]
  rfl

/-- A command line that comes to the requests of a command with these words does at the daemon what the command is for. -/
theorem main_of_mainPlan {v : Verb} {args p : List String} (hv : v ∈ verbList) (hreaches : Reaches http c)
    (hlen : v.function.words ≤ p.length) (hwords : ∀ word ∈ p, IsWord word)
    (hfits : ∀ wish ∈ v.function.wishes p, wish.Fits s!"{c.server}/{groups v.target}")
    (hplan : mainPlan c args =
      (sendAll s!"{c.server}/{groups v.target}" (v.function.wishes p) v.function.deletes).map (fun plan => some (v, plan))) :
    main (serve http J w) c args s = ((v.function.asks p).foldlM (fun s r => carryOut J w r s) s).map (fun s => (0, s)) := by
  have hroute := @route_wishes p v.function hlen (fun word hword => (hwords word hword).ne_empty)
    (fun wish hwish => ⟨(hfits wish hwish).copied, (hfits wish hwish).made⟩)
  rw [(verbList_words v hv).2] at hroute
  have hserve := @serve_all http J w c s v.target _ _ hreaches (wish_shape hlen hwords) hroute 0
  unfold main
  rw [hplan, sendAll_fits _ hfits]
  change (Plan.perform _ _ _ >>= _) = _
  unfold Plan.perform
  dsimp only
  rw [hserve]
  cases (v.function.asks p).foldlM (fun s r => carryOut J w r s) s with
  | error f => rfl
  | ok s' => simp [map_ok, bind, Except.bind, pure, Except.pure]

/-- A command whose words are plain and whose requests fit does at the daemon what it is for, in the order of its words, and returns zero. -/
theorem main_does {v : Verb} {verb : String} {rest : List String} (hreaches : Reaches http c)
    (hverb : findVerb verb rest.head? c.root = some v) (hnum : validArguments (verb :: rest).length v.target v.numArgs = true)
    (hgo : v.function.asksFirst = true → c.prompt.cancels = false) (hwords : ∀ word ∈ rest.drop 1, IsWord word)
    (hbase : (s!"{c.server}/{groups v.target}").length < urlSize)
    (hfits : ∀ wish ∈ v.function.wishes (rest.drop 1), wish.Fits s!"{c.server}/{groups v.target}") :
    main (serve http J w) c (verb :: rest) s =
      ((v.function.asks (rest.drop 1)).foldlM (fun s r => carryOut J w r s) s).map (fun s => (0, s)) := by
  have hv : v ∈ verbList := (selects_of_findVerbLoop (fun _ h => h) hverb).mem
  exact main_of_mainPlan hv hreaches (words_le hv hnum).1 hwords hfits (mainPlan_run hverb hnum hgo hbase)

/-! ## Bodies that are too long -/

/-- The command that a command line comes to, and that is not called off. -/
structure Started (c : Client) (args : List String) (v : Verb) (p : List String) : Prop where
  verb : ∃ (verb : String) (rest : List String), args = verb :: rest ∧ findVerb verb rest.head? c.root = some v ∧ rest.drop 1 = p
  words : validArguments args.length v.target v.numArgs = true
  goes : (v.function.asksFirst && c.prompt.cancels) = false

theorem send_error_iff {base : String} {wish : Wish} {f : Fault} :
    wish.send base = .error f ↔ f = .outOfBounds ∧ wish.room < wish.body.length := by
  unfold Wish.send sendBuffer
  split_ifs with hlt heq
  · exact iff_of_false (fun h => by cases h) (fun h => by omega)
  · exact iff_of_false (fun h => by cases h) (fun h => by omega)
  · refine ⟨fun h => ?_, fun h => ?_⟩
    · cases h
      exact ⟨rfl, by omega⟩
    · rw [h.1]
      rfl

theorem sendAll_error_iff {base : String} {wishes : List Wish} {ignores : Bool} {f : Fault} :
    sendAll base wishes ignores = .error f ↔ f = .outOfBounds ∧ ∃ wish ∈ wishes, wish.room < wish.body.length := by
  unfold sendAll
  induction wishes with
  | nil =>
    refine iff_of_false (fun h => by cases h) ?_
    rintro ⟨-, wish, hwish, -⟩
    exact List.not_mem_nil hwish
  | cons wish wishes ih =>
    rw [List.mapM_cons]
    simp only [List.mem_cons, exists_eq_or_imp]
    cases hsend : wish.send base with
    | error g =>
      obtain ⟨rfl, hlong⟩ := send_error_iff.mp hsend
      refine ⟨fun h => ?_, fun h => ?_⟩
      · cases h
        exact ⟨rfl, Or.inl hlong⟩
      · rw [h.1]
        rfl
    | ok call =>
      have hfits : ¬wish.room < wish.body.length := by
        intro hlong
        rw [send_error_iff.mpr ⟨rfl, hlong⟩] at hsend
        cases hsend
      rw [or_iff_right hfits, ← ih]
      cases wishes.mapM (Wish.send base) with
      | error g => rfl
      | ok calls => exact iff_of_false (fun h => by cases h) (fun h => by cases h)

/-- How much of a name there is room for behind the other parts of a URL. -/
def nameRoom (c : Client) (entity : Entity) (parts : List String) : Nat :=
  urlSize - 1 - (("/".intercalate (s!"{c.server}/{groups entity}" :: parts)).length + 1)

theorem cCut_eq_self_iff {n : Nat} {name : String} : cCut n name = name ↔ name.length ≤ n := by
  refine ⟨fun h => ?_, cCut_of_le⟩
  have hlen := length_cCut n name
  rw [h] at hlen
  omega

theorem url_snoc (base : String) (parts : List String) (name : String) :
    "/".intercalate (base :: (parts ++ [name])) = "/".intercalate (base :: parts) ++ "/" ++ name := by
  rw [← List.cons_append, String.intercalate_append_of_ne_nil (List.cons_ne_nil _ _) (List.cons_ne_nil _ _),
    String.intercalate_singleton]

/-- A URL that is too long is cut in its last name. -/
theorem snprintf_url {entity : Entity} {parts : List String} {name : String}
    (hroom : ("/".intercalate (s!"{c.server}/{groups entity}" :: parts)).length + 1 < urlSize) :
    snprintf urlSize ("/".intercalate (s!"{c.server}/{groups entity}" :: (parts ++ [name]))) =
      "/".intercalate (s!"{c.server}/{groups entity}" :: (parts ++ [cCut (nameRoom c entity parts) name])) := by
  rw [url_snoc, url_snoc]
  unfold nameRoom
  generalize "/".intercalate (s!"{c.server}/{groups entity}" :: parts) = url at hroom ⊢
  apply String.toList_inj.mp
  have hlen : (url.toList ++ ['/']).length = url.length + 1 := by rw [List.length_append, String.length_toList, List.length_singleton]
  have hle : (url.toList ++ ['/']).length ≤ urlSize - 1 := by omega
  unfold snprintf cCut
  rw [String.toList_ofList, String.toList_append, String.toList_append, String.toList_append, String.toList_append,
    String.toList_ofList, List.take_append, List.take_of_length_le hle, hlen, String.toList_ofList]

theorem wishes_before {cmd : Command} {before parts names : List String} (h : cmd.before before = some parts) :
    cmd.wishes (before ++ names) = names.map (fun name => { method := .delete, parts := parts ++ [name] }) := by
  unfold Command.before at h
  split at h <;> cases h <;> rfl

theorem asks_before {cmd : Command} {before parts : List String} (h : cmd.before before = some parts) :
    ∃ ask : String → Routed, Function.Injective ask ∧ ∀ names, cmd.asks (before ++ names) = names.map ask := by
  unfold Command.before at h
  split at h <;> cases h
  · exact ⟨fun name => .call (.delGroup (some name)), fun _ _ heq => by simpa using heq, fun _ => rfl⟩
  · exact ⟨fun name => .call (.delTarget (some name)), fun _ _ heq => by simpa using heq, fun _ => rfl⟩
  · exact ⟨fun name => .call (.delHost (some name)), fun _ _ heq => by simpa using heq, fun _ => rfl⟩
  · exact ⟨fun nqn => .call (.delSubsys (some _) (some nqn)), fun _ _ heq => by simpa using heq, fun _ => rfl⟩
  · exact ⟨fun host => .call (.unlinkHost (some _) (some _) (some host)), fun _ _ heq => by simpa using heq, fun _ => rfl⟩

theorem words_before {cmd : Command} {before parts : List String} (h : cmd.before before = some parts) :
    cmd.words = before.length + 1 ∧ cmd.deletes = true := by
  unfold Command.before at h
  split at h <;> cases h <;> exact ⟨rfl, rfl⟩

theorem verbList_deletes : ∀ v ∈ verbList, v.function.deletes = true → v.numArgs < 0 ∧ v.target ≠ .dem := by decide +kernel

theorem length_le_intercalate (base : String) (parts : List String) : base.length ≤ ("/".intercalate (base :: parts)).length := by
  rcases parts with _ | ⟨part, parts⟩
  · rw [String.intercalate_singleton]
  · rw [String.intercalate_cons_cons, String.length_append, String.length_append]
    omega

theorem sendAll_names {entity : Entity} {parts names : List String}
    (hroom : ("/".intercalate (s!"{c.server}/{groups entity}" :: parts)).length + 1 < urlSize) (ignores : Bool) :
    sendAll s!"{c.server}/{groups entity}" (names.map (fun name => { method := .delete, parts := parts ++ [name] })) ignores =
      .ok
        { calls := (names.map (cCut (nameRoom c entity parts))).map (fun name =>
            { method := .delete, url := "/".intercalate (s!"{c.server}/{groups entity}" :: (parts ++ [name])) })
          ignores := ignores } := by
  unfold sendAll
  rw [mapM_ok (g := fun wish => { method := wish.method, url := snprintf urlSize (wish.url s!"{c.server}/{groups entity}") })]
  · rw [map_ok, List.map_map, List.map_map]
    have hcalls : ∀ name, snprintf urlSize (Wish.url s!"{c.server}/{groups entity}" { method := .delete, parts := parts ++ [name] }) =
        "/".intercalate (s!"{c.server}/{groups entity}" :: (parts ++ [cCut (nameRoom c entity parts) name])) :=
      fun name => snprintf_url hroom
    simp only [Function.comp_def, hcalls]
  · intro wish hwish
    obtain ⟨name, -, rfl⟩ := List.mem_map.mp hwish
    exact send_bare rfl (show 0 < dataSize by decide)

/-- A command that deletes makes the same requests when its names are cut beforehand. -/
theorem sendAll_cut {entity : Entity} {parts names : List String}
    (hroom : ("/".intercalate (s!"{c.server}/{groups entity}" :: parts)).length + 1 < urlSize) (ignores : Bool) :
    sendAll s!"{c.server}/{groups entity}" (names.map (fun name => { method := .delete, parts := parts ++ [name] })) ignores =
      sendAll s!"{c.server}/{groups entity}"
        ((names.map (cCut (nameRoom c entity parts))).map (fun name => { method := .delete, parts := parts ++ [name] })) ignores := by
  have htwice : ∀ name, cCut (nameRoom c entity parts) (cCut (nameRoom c entity parts) name) = cCut (nameRoom c entity parts) name :=
    fun name => cCut_of_le (by rw [length_cCut]; omega)
  rw [sendAll_names hroom, sendAll_names hroom]
  simp only [List.map_map, Function.comp_def, htwice]

/-- A command that deletes by name, whose URLs are too long, deletes at the daemon what the names say as far as there is room for them. It
deletes what it was told exactly if there is room for every name. -/
theorem delete_cuts_names {v : Verb} {verb object : String} {before parts names : List String} (hreaches : Reaches http c)
    (hverb : findVerb verb (some object) c.root = some v) (hbefore : v.function.before before = some parts) (hne : names ≠ [])
    (hgo : c.prompt.cancels = false) (hwords : ∀ word ∈ before, IsWord word)
    (hnames : ∀ name ∈ names, IsWord (cCut (nameRoom c v.target parts) name))
    (hroom : ("/".intercalate (s!"{c.server}/{groups v.target}" :: parts)).length + 1 < urlSize) :
    main (serve http J w) c (verb :: object :: (before ++ names)) s =
        ((v.function.asks (before ++ names.map (cCut (nameRoom c v.target parts)))).foldlM (fun s r => carryOut J w r s) s).map
          (fun s => (0, s)) ∧
      (v.function.asks (before ++ names.map (cCut (nameRoom c v.target parts))) = v.function.asks (before ++ names) ↔
        ∀ name ∈ names, name.length ≤ nameRoom c v.target parts) := by
  have hv : v ∈ verbList := (selects_of_findVerbLoop (fun _ h => h) hverb).mem
  obtain ⟨hlen, hdeletes⟩ := words_before hbefore
  obtain ⟨hneg, htarget⟩ := verbList_deletes v hv hdeletes
  have hpos : 0 < names.length := List.length_pos_iff.mpr hne
  have hnum : validArguments (verb :: object :: (before ++ names)).length v.target v.numArgs = true := by
    unfold validArguments
    rw [if_neg htarget, if_pos hneg, decide_eq_true_iff, ← (verbList_words v hv).1, hlen]
    simp only [List.length_cons, List.length_append]
    omega
  refine ⟨main_of_mainPlan hv hreaches ?_ ?_ ?_ ?_, ?_⟩
  · rw [hlen, List.length_append, List.length_map]
    omega
  · intro word hword
    rcases List.mem_append.mp hword with hword | hword
    · exact hwords word hword
    · obtain ⟨name, hname, rfl⟩ := List.mem_map.mp hword
      exact hnames name hname
  · rw [wishes_before hbefore]
    intro wish hwish
    obtain ⟨name, hname, rfl⟩ := List.mem_map.mp hwish
    obtain ⟨name, -, rfl⟩ := List.mem_map.mp hname
    refine ⟨?_, show "".length < dataSize by decide, show "".length ≤ largeRsp by decide, show "".length ≤ smallRsp by decide⟩
    unfold Wish.url
    rw [← snprintf_url hroom]
    unfold snprintf
    rw [length_cCut]
    have hsize : urlSize = 128 := rfl
    omega
  · have hbase := length_le_intercalate s!"{c.server}/{groups v.target}" parts
    rw [mainPlan_run hverb hnum (fun _ => hgo) (by omega), List.drop_succ_cons, List.drop_zero, wishes_before hbefore,
      wishes_before hbefore, sendAll_cut hroom]
  · obtain ⟨ask, hinj, hasks⟩ := asks_before hbefore
    rw [hasks, hasks, List.map_inj_right hinj]
    have hself : names.map (cCut (nameRoom c v.target parts)) = names ↔ ∀ name ∈ names, cCut (nameRoom c v.target parts) name = name := by
      conv_lhs => rhs; rw [← List.map_id names]
      exact List.map_inj_left
    rw [hself]
    exact forall₂_congr (fun name _ => cCut_eq_self_iff)

end

/-! A command that deletes two of three groups, by its short names. -/

/-- A server that hands over what is behind the name of the daemon. -/
def behindServer (c : Client) : HttpLib where
  uri url := some (String.ofList (url.toList.drop c.server.length))

theorem behindServer_reaches (c : Client) : Reaches (behindServer c) c := by
  intro parts hne _
  rw [String.intercalate_cons_of_ne_nil hne]
  unfold behindServer
  refine congrArg some (String.toList_inj.mp ?_)
  rw [String.toList_ofList, String.append_assoc, String.toList_append, ← String.length_toList, List.drop_left]

def plainGroup (name : String) : Json := .object [(tagName, .string name), (tagTargets, .array []), (tagHosts, .array [])]

def groupServer (names : List String) : Server where
  dem :=
    { root := .object [(tagGroups, .array (names.map plainGroup))], lists := { groupList := names.map (fun name => { ptr := (name.toList.map Char.toNat).sum, name := name }) } }
  file := .object [(tagGroups, .array (names.map plainGroup))]

def yesClient : Client where
  prompt := { promptDeletes := true, answer := some 'y' }

theorem main_does_delete :
    main (serve (behindServer yesClient) (JsonLib.ofTexts []) {}) yesClient ["del", "g", "a", "c"] (groupServer ["a", "b", "c"]) =
      .ok (0, groupServer ["b"]) := by
  have hverb : findVerb "del" ["g", "a", "c"].head? yesClient.root = some ⟨.delGroup, .group, -1, "delete", some "group"⟩ := by decide
  rw [main_does (behindServer_reaches yesClient) hverb (by decide) (fun _ => by decide) (by decide) (by decide) (by decide)]
  rfl

/-! A group whose name is two characters too long for a URL: another group is deleted. -/

def longGroup (n : Nat) : String := String.ofList (List.replicate n 'x')

theorem delete_cuts_names_long :
    main (serve (behindServer yesClient) (JsonLib.ofTexts []) {}) yesClient ["del", "g", longGroup 100]
      (groupServer [longGroup 98, longGroup 100]) = .ok (0, groupServer [longGroup 100]) := by
  have hverb : findVerb "del" (some "g") yesClient.root = some ⟨.delGroup, .group, -1, "delete", some "group"⟩ := by decide
  have hbefore : Command.delGroup.before [] = some [] := rfl
  have hnames : ∀ name ∈ [longGroup 100], IsWord (cCut (nameRoom yesClient .group []) name) := by decide +kernel
  exact (delete_cuts_names (behindServer_reaches yesClient) hverb hbefore (by decide) (by decide) (by decide) hnames
    (by decide)).1.trans (by rfl)

end NvmeDem.Cli
