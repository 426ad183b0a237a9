import Scratchbox.RuleUnfolding

/-!
# The structure of the loaded rules

The lists of the file unfold to the lists of the Lua tables, item by item, exactly if every list
that is looked up has the same meaning as the one that is stored for its first table
(`loaded_forest_unfolds_iff`).

A list that begins with the first table of another list gets the contents of that list
(`shared_first_rule_shortens_list`).
-/

namespace Scratchbox

open Bytes RecordFormat List

/-! ## Appending and setting items -/

def BusyIn (busy : List Nat) (img : Image) : Prop := ∀ p ∈ busy, ∃ o, ObjectIn img p o

/-- A list after items from the number `n` on were set; the items before are kept. -/
structure ListKept (list : Offset) (o : RawObject) (n count : Nat) (img img' : Image)
    (o' : RawObject) : Prop where
  keeps : Keeps [list.toNat] img img'
  object : ObjectIn img' list.toNat o'
  type : o'.type = .objectlist
  size : Image.word o'.body 0 = Image.word o.body 0
  before : n + count ≤ (Image.word o.body 0).toNat →
    ∀ k < n, Image.word o'.body (4 + 4 * k) = Image.word o.body (4 + 4 * k)

section Steps

variable {busy : List Nat} {img img' img'' : Image} {list offs : Offset} {o o' o'' : RawObject}
  {n count : Nat}

theorem BusyIn.grows (h : BusyIn busy img) (hgrows : Grows img img') : BusyIn busy img' := by
  intro p hp
  obtain ⟨o, ho⟩ := h p hp
  obtain ⟨o', ho', -⟩ := hgrows.objectIn ho
  exact ⟨o', ho'⟩

theorem BusyIn.notMem (h : BusyIn busy img) {p : Nat} (hp : img.length ≤ p) : p ∉ busy := by
  intro hmem
  obtain ⟨o, ho⟩ := h p hmem
  exact absurd ho.lt_length (Nat.not_lt.2 hp)

theorem returns_appendObject (hlaid : WellLaid img) (new : NewObject) :
    FileReturns (append new) img fun offs img' => Keeps [] img img' ∧ offs.toNat = img.length ∧
      ∃ o, ObjectIn img' offs.toNat o ∧ o.type = new.type ∧
        o.body = new.fields ++ new.contents := by
  refine .step fun hrely => .ret ⟨keeps_append hrely, ?_, ?_⟩
  · show (BitVec.ofNat 32 img.length).toNat = img.length
    exact hlaid.toNat_length
  · exact ⟨_, hlaid.appended hrely, rfl, rfl⟩

theorem returns_appendString (hlaid : WellLaid img) (str : CText) :
    FileReturns (append (.string str)) img fun offs img' => Keeps [] img img' ∧
      HasName img' offs str ∧ img.length < img'.length := by
  refine (returns_appendObject hlaid _).mono fun offs img' happended => ?_
  obtain ⟨hkeeps, hfresh, o, ho, htype, hbody⟩ := happended
  refine ⟨hkeeps, ⟨o, ho, htype, ?_⟩, hfresh ▸ ho.lt_length⟩
  rw [hbody]
  exact NewObject.drop_string str

theorem returns_appendText (hlaid : WellLaid img) (str : Option CText) :
    FileReturns (appendText str) img fun offs img' => Keeps [] img img' ∧ TextAt img' offs str := by
  cases str with
  | none => exact .ret ⟨.refl img, rfl⟩
  | some str =>
    exact (returns_appendString hlaid str).mono fun _ _ hstring => ⟨hstring.1, hstring.2.1⟩

theorem returns_setItem (ho : ObjectIn img list.toNat o) (htype : o.type = .objectlist) (n : Nat)
    (value : Offset) :
    FileReturns (objectlistSetItem list (BitVec.ofNat 32 n) value) img fun _ img' =>
      img.length ≤ img'.length ∧ ∃ o', ListKept list o n 1 img img' o' ∧
        (n < (Image.word o.body 0).toNat → Image.word o'.body (4 + 4 * n) = value) := by
  have hnumber : n < (Image.word o.body 0).toNat → (BitVec.ofNat 32 n).toNat = n := fun hn => by
    rw [BitVec.toNat_ofNat, Nat.mod_eq_of_lt (Nat.lt_trans hn (Image.word o.body 0).isLt)]
  have hrun := run_objectlistSetItem ho htype (BitVec.ofNat 32 n) value
  by_cases houtside : Image.word o.body 0 ≤ BitVec.ofNat 32 n
  · rw [if_pos houtside] at hrun
    refine .of_run hrun ⟨Nat.le_refl _, o, ⟨.refl img, ho, htype, rfl, fun _ _ _ => rfl⟩, ?_⟩
    intro hn
    have hle : (Image.word o.body 0).toNat ≤ (BitVec.ofNat 32 n).toNat := houtside
    rw [hnumber hn] at hle
    exact absurd hn (Nat.not_lt.2 hle)
  · rw [if_neg houtside] at hrun
    have hfits : (FieldStore.item (BitVec.ofNat 32 n) value).Fits o :=
      FieldStore.fits_item htype (BitVec.not_le.1 houtside)
    have hlength := FieldStore.item_le_length htype (BitVec.not_le.1 houtside)
    have hbody := hfits.body_item
    refine .of_run hrun ⟨length_le_patch _ _ _, _, ⟨⟨grows_store ho hfits, ?_⟩,
      ho.store_self hfits, htype, (RawObject.sameShape_patchBody hfits.mutable).listSize htype, ?_⟩,
      ?_⟩
    · intro p other hp _ hother
      exact ho.store_other hfits hother fun heq => hp (mem_singleton.2 heq)
    · intro hn k hk
      rw [hnumber hn] at hlength hbody
      rw [hbody, word_patch_before hlength (by omega)]
    · intro hn
      rw [hnumber hn] at hlength hbody
      rw [hbody, word_patch_self hlength]

theorem ListKept.step {value : Offset} (hset : ListKept list o n 1 img img' o')
    (hitem : n < (Image.word o.body 0).toNat → Image.word o'.body (4 + 4 * n) = value)
    (hrest : ListKept list o' (n + 1) count img' img'' o'') :
    ListKept list o n (count + 1) img img'' o'' ∧
      (n + (count + 1) ≤ (Image.word o.body 0).toNat →
        Image.word o''.body (4 + 4 * n) = value) := by
  have hsize := hset.size
  refine ⟨⟨hset.keeps.trans hrest.keeps, hrest.object, hrest.type, hrest.size.trans hsize, ?_⟩, ?_⟩
  · intro hfits k hk
    rw [hrest.before (by rw [hsize]; omega) k (by omega), hset.before (by omega) k hk]
  · intro hfits
    rw [hrest.before (by rw [hsize]; omega) n (by omega), hitem (by omega)]

theorem ListKept.after (h : ListKept list o n count img' img'' o')
    (hkeeps : Keeps [] img img') : ListKept list o n count img img'' o' :=
  { h with keeps := hkeeps.weaken.trans h.keeps }

theorem ListKept.listAt {items : List Unfolded} (h : ListKept list o 0 n img img' o')
    (hsize : Image.word o.body 0 = BitVec.ofNat 32 items.length) (hlt : items.length < 2 ^ 32)
    (hne : items ≠ []) (hbusy : list.toNat ∉ busy)
    (hitems : 0 + items.length ≤ (Image.word o.body 0).toNat →
      ItemsAt (list.toNat :: busy) img' items o'.body 0) : ListAt busy img' items list := by
  have hcount : (Image.word o.body 0).toNat = items.length := by
    rw [hsize, BitVec.toNat_ofNat, Nat.mod_eq_of_lt hlt]
  refine .inr ⟨fun hnil => hne (length_eq_zero_iff.1 hnil), hbusy, o', h.object, h.type,
    ?_, ?_⟩
  · rw [h.size, hcount]
  · exact (hitems (by rw [hcount, Nat.zero_add])).carries (carries_done _)

end Steps

/-! ## Directories and rules -/

section Rules

variable {busy : List Nat} {img : Image} {list : Offset}

theorem returns_setUnionDirs (busy : List Nat) (dirs : List CText) {img : Image} {o : RawObject}
    {n : Nat} (ho : ObjectIn img list.toNat o) (htype : o.type = .objectlist) :
    FileReturns (setUnionDirs list n dirs) img fun _ img' =>
      img.length + dirs.length ≤ img'.length ∧ ∃ o', ListKept list o n dirs.length img img' o' ∧
        (n + dirs.length ≤ (Image.word o.body 0).toNat →
          ItemsAt busy img' (dirs.map .text) o'.body n) := by
  induction dirs generalizing img o n with
  | nil =>
    exact .ret ⟨Nat.le_refl _, o, ⟨.refl img, ho, htype, rfl, fun _ _ _ => rfl⟩, fun _ => trivial⟩
  | cons dir dirs ih =>
    refine (returns_appendString ho.wellLaid dir).bind fun str img₁ hstring => ?_
    obtain ⟨hkeeps, hname, hlonger⟩ := hstring
    have ho₁ := hkeeps.objects _ o not_mem_nil (by rw [htype]; decide) ho
    refine (returns_setItem ho₁ htype n str).bind fun _ img₂ hset => ?_
    obtain ⟨hlength, o₂, hkept, hitem⟩ := hset
    refine (ih hkept.object hkept.type).mono fun _ img₃ hrest => ?_
    obtain ⟨hlength', o₃, hkept', hitems⟩ := hrest
    obtain ⟨hall, hfirst⟩ := hkept.step hitem hkept'
    refine ⟨?_, o₃, hall.after hkeeps, fun hfits => ⟨?_, ?_⟩⟩
    · rw [length_cons]
      omega
    · rw [hfirst hfits]
      exact hname.grows hall.keeps.grows
    · rw [length_cons] at hfits
      exact hitems (by rw [hkept.size]; omega)

theorem returns_unionDirList (hlaid : WellLaid img) (hbusy : BusyIn busy img) (dirs : List CText) :
    FileReturns (getRuleTreeOffsetForUnionDirList dirs) img fun offs img' =>
      Keeps [] img img' ∧ ListAt busy img' (dirs.map .text) offs := by
  unfold getRuleTreeOffsetForUnionDirList
  by_cases hnil : dirs = []
  · rw [if_pos hnil, hnil]
    exact .ret ⟨.refl img, .inl ⟨rfl, rfl⟩⟩
  · rw [if_neg hnil]
    refine (returns_appendObject hlaid _).bind fun list img₁ happended => ?_
    obtain ⟨hkeeps, hfresh, o, ho, htype, hbody⟩ := happended
    refine (returns_setUnionDirs (list.toNat :: busy) dirs ho htype).bind fun _ img₂ hfilled => ?_
    obtain ⟨hlength, o₂, hkept, hitems⟩ := hfilled
    refine .ret ⟨hkeeps.trans_fresh hkept.keeps (Nat.le_of_eq hfresh.symm), ?_⟩
    -- each directory has its string, so that there are fewer of them than bytes
    have hlt : dirs.length < 2 ^ 32 := Nat.lt_of_le_of_lt
      (Nat.le_trans (Nat.le_add_left _ _) hlength) hkept.object.wellLaid.length_lt
    refine hkept.listAt ?_ (by rw [length_map]; exact hlt) ?_
      (hbusy.notMem (Nat.le_of_eq hfresh.symm)) (by rw [length_map]; exact hitems)
    · rw [hbody, NewObject.word_objectlist, length_map]
    · rwa [Ne, map_eq_nil_iff]

theorem returns_addRuleToRuletree (hlaid : WellLaid img) (hbusy : BusyIn busy img)
    (args : RuleArgs) (link : Offset) :
    FileReturns (addRuleToRuletree args link) img fun offs img' => Keeps [] img img' ∧
      (¬ args.Accepted → offs = 0) ∧
        (args.Accepted → offs.toNat ∉ busy ∧ ∃ o, ObjectIn img' offs.toNat o ∧
          o.type = .fsrule ∧ args.At img' o.body ∧ Image.word o.body 20 = link) := by
  refine (returns_appendText hlaid args.name).bind fun nameOffs img₁ hname => ?_
  obtain ⟨hkeeps₁, hname⟩ := hname
  by_cases haccepted : args.Accepted
  · rw [if_pos haccepted]
    have hlaid₁ := hlaid.grows hkeeps₁.grows
    refine (returns_appendText hlaid₁ args.selector).bind fun selectorOffs img₂ hselector => ?_
    obtain ⟨hkeeps₂, hselector⟩ := hselector
    have hlaid₂ := hlaid₁.grows hkeeps₂.grows
    refine (returns_appendText hlaid₂ args.actionStr).bind fun actionOffs img₃ haction => ?_
    obtain ⟨hkeeps₃, haction⟩ := haction
    have hlaid₃ := hlaid₂.grows hkeeps₃.grows
    refine (returns_appendText hlaid₃ args.conditionStr).bind fun condOffs img₄ hcondition => ?_
    obtain ⟨hkeeps₄, hcondition⟩ := hcondition
    have hlaid₄ := hlaid₃.grows hkeeps₄.grows
    refine (returns_appendText hlaid₄ args.binaryName).bind fun binaryOffs img₅ hbinary => ?_
    obtain ⟨hkeeps₅, hbinary⟩ := hbinary
    have hlaid₅ := hlaid₄.grows hkeeps₅.grows
    refine (returns_appendText hlaid₅ args.execPolicyName).bind fun policyOffs img₆ hpolicy => ?_
    obtain ⟨hkeeps₆, hpolicy⟩ := hpolicy
    refine (returns_appendObject (hlaid₅.grows hkeeps₆.grows) _).mono fun offs img₇ hrule => ?_
    obtain ⟨hkeeps₇, hfresh, o, ho, htype, hbody⟩ := hrule
    -- what is kept from each string on
    have hfrom₆ := hkeeps₆.trans hkeeps₇
    have hfrom₅ := hkeeps₅.trans hfrom₆
    have hfrom₄ := hkeeps₄.trans hfrom₅
    have hfrom₃ := hkeeps₃.trans hfrom₄
    have hfrom₂ := hkeeps₂.trans hfrom₃
    have hbefore := hkeeps₁.trans (hkeeps₂.trans (hkeeps₃.trans (hkeeps₄.trans
      (hkeeps₅.trans hkeeps₆))))
    refine ⟨hkeeps₁.trans hfrom₂, fun hrefused => absurd haccepted hrefused, fun _ =>
      ⟨(hbusy.grows hbefore.grows).notMem (Nat.le_of_eq hfresh.symm), o, ho, htype, ?_, ?_⟩⟩
    · rw [hbody]
      exact
        { name := (hname.grows hfrom₂.grows).of_word (word_of_slice rfl)
          selectorType := word_of_slice rfl
          selector := (hselector.grows hfrom₃.grows).of_word (word_of_slice rfl)
          actionType := word_of_slice rfl
          actionStr := (haction.grows hfrom₄.grows).of_word (word_of_slice rfl)
          conditionType := word_of_slice rfl
          conditionStr := (hcondition.grows hfrom₅.grows).of_word (word_of_slice rfl)
          flags := word_of_slice rfl
          binaryName := (hbinary.grows hfrom₆.grows).of_word (word_of_slice rfl)
          funcClass := word_of_slice rfl
          execPolicyName := (hpolicy.grows hkeeps₇.grows).of_word (word_of_slice rfl) }
    · rw [hbody]
      exact word_of_slice rfl
  · rw [if_neg haccepted]
    exact .ret ⟨hkeeps₁, fun _ => rfl, fun h => absurd h haccepted⟩

theorem returns_finishRule (hlaid : WellLaid img) (hbusy : BusyIn busy img) (rule : RuleTable)
    (hasActions hasRules : Bool) (link : Offset × LoaderState) (items : List Unfolded) :
    FileReturns (finishRule rule hasActions hasRules link) img fun added img' =>
      Keeps [] img img' ∧ added.2 = link.2 ∧ (ListAt busy img items link.1 →
        (rule.unfoldWith hasActions hasRules items).At busy img' added.1) := by
  unfold finishRule RuleTable.addToRuletree RuleTable.unfoldWith
  by_cases hother : rule.customMapFunct = some .other
  · rw [if_pos hother, if_neg fun h => h.1 hother]
    exact .ret ⟨.refl img, rfl, fun _ => rfl⟩
  · rw [if_neg hother]
    refine (returns_addRuleToRuletree hlaid hbusy _ link.1).bind fun offs img₁ hadded => ?_
    obtain ⟨hkeeps, hrefused, hstored⟩ := hadded
    refine .ret ⟨hkeeps, rfl, fun hlink => ?_⟩
    by_cases haccepted : (rule.args hasActions hasRules).Accepted
    · obtain ⟨hnew, o, ho, htype, hargs, hword⟩ := hstored haccepted
      rw [if_pos ⟨hother, haccepted⟩]
      refine ⟨hnew, o, ho, htype, hargs, ?_⟩
      rw [hword]
      exact hlink.carries hkeeps.carries
    · rw [if_neg fun h => haccepted h.2]
      exact hrefused haccepted

end Rules

/-! ## What the loader knows -/

namespace LoaderState

/-- The offsets in the tables are those of the lists that are stored. -/
structure Records (state : LoaderState) (seen : Seen) : Prop where
  stored : ∀ i offs, state.ruleTreeOffset i = some offs →
    ∃ rules, seen i = some rules ∧ (rules, offs) ∈ state.returned
  fresh : ∀ i, state.ruleTreeOffset i = none → seen i = none

/-- Every offset that was returned for a list is that of a list with its contents. -/
def Right (busy : List Nat) (img : Image) (state : LoaderState) : Prop :=
  ∀ e ∈ state.returned, ListAt busy img (unfoldList e.1) e.2

variable {state state' : LoaderState} {seen : Seen} {busy busy' : List Nat} {img img' : Image}

theorem Right.of_subset (h : state'.Right busy img) (hlog : state.returned ⊆ state'.returned) :
    state.Right busy img := fun e he => h e (hlog he)

theorem Right.carries (h : state.Right busy img) (hcarries : Carries busy img busy' img') :
    state.Right busy' img' := fun e he => (h e he).carries hcarries

theorem Right.note {rules : List LuaTable} {offs : Offset} (h : state.Right busy img)
    (hlist : ListAt busy img (unfoldList rules) offs) : (state.note rules offs).Right busy img := by
  intro e he
  rcases mem_cons.1 he with rfl | he
  · exact hlist
  · exact h e he

theorem Records.note (h : state.Records seen) (rules : List LuaTable) (offs : Offset) :
    (state.note rules offs).Records seen := by
  refine ⟨fun i o hi => ?_, h.fresh⟩
  obtain ⟨stored, hseen, hmem⟩ := h.stored i o hi
  exact ⟨stored, hseen, mem_cons_of_mem _ hmem⟩

theorem Records.setOffset (h : state.Records seen) (ident : Nat) (rules : List LuaTable)
    (offs : Offset) :
    ((state.setOffset ident offs).note rules offs).Records (seen.set ident rules) := by
  refine ⟨fun i o hi => ?_, fun i hi => ?_⟩
  · change (if i = ident then some offs else state.ruleTreeOffset i) = some o at hi
    by_cases hident : i = ident
    · rw [if_pos hident] at hi
      cases hi
      exact ⟨rules, if_pos hident, mem_cons_self⟩
    · rw [if_neg hident] at hi
      obtain ⟨stored, hseen, hmem⟩ := h.stored i o hi
      exact ⟨stored, (if_neg hident).trans hseen, mem_cons_of_mem _ hmem⟩
  · change (if i = ident then some offs else state.ruleTreeOffset i) = none at hi
    by_cases hident : i = ident
    · rw [if_pos hident] at hi
      cases hi
    · rw [if_neg hident] at hi
      exact (if_neg hident).trans (h.fresh i hi)

end LoaderState

/-- A part of the loader is done: what is in the tables, and that it is stored as it should be
if the lists agree. If all that was returned is right in the end, they agree. -/
structure Loaded (busy : List Nat) (img : Image) (state : LoaderState) (seen : Seen)
    (agrees : Prop) (img' : Image) (state' : LoaderState) (stored : Prop) : Prop where
  records : state'.Records seen
  log : state.returned ⊆ state'.returned
  right : state.Right busy img → agrees → stored ∧ state'.Right busy img'
  agrees : ∀ img'', state'.Right [] img'' → agrees

theorem length_unfoldList (rules : List LuaTable) : (unfoldList rules).length = rules.length := by
  induction rules with
  | nil => rfl
  | cons rule rules ih => exact congrArg (· + 1) ih

def LuaTable.Loads (t : LuaTable) : Prop :=
  ∀ (busy : List Nat) (img : Image) (state : LoaderState) (seen : Seen), WellLaid img →
    BusyIn busy img → state.Records seen →
      FileReturns (addOneRule t state) img fun added img' => Keeps [] img img' ∧
        Loaded busy img state (t.seenAfter seen) (t.Agrees seen) img' added.2
          (t.unfold.At busy img' added.1)

section Loader

variable {rules : List LuaTable} {busy : List Nat} {img : Image} {state : LoaderState} {seen : Seen}

theorem returns_addRules (hrules : ∀ t ∈ rules, t.Loads) {list : Offset} {o : RawObject} {n : Nat}
    (ho : ObjectIn img list.toNat o) (htype : o.type = .objectlist) (hlist : list.toNat ∈ busy)
    (hbusy : BusyIn busy img) (hrecords : state.Records seen) :
    FileReturns (addRules rules n list state) img fun state' img' =>
      ∃ o', ListKept list o n rules.length img img' o' ∧
        Loaded busy img state (seenAfterList rules seen) (ListAgrees rules seen) img' state'
          (n + rules.length ≤ (Image.word o.body 0).toNat →
            ItemsAt busy img' (unfoldList rules) o'.body n) := by
  induction rules generalizing img state seen o n with
  | nil =>
    exact .ret ⟨o, ⟨.refl img, ho, htype, rfl, fun _ _ _ => rfl⟩, hrecords, fun _ h => h,
      fun hright _ => ⟨fun _ => trivial, hright⟩, fun _ _ => trivial⟩
  | cons t rules ih =>
    refine (hrules t mem_cons_self busy img state seen ho.wellLaid hbusy hrecords).bind
      fun added img₁ hadded => ?_
    obtain ⟨hkeeps, hfirst⟩ := hadded
    have ho₁ := hkeeps.objects _ o not_mem_nil (by rw [htype]; decide) ho
    refine (returns_setItem ho₁ htype n added.1).bind fun _ img₂ hset => ?_
    obtain ⟨-, o₂, hkept, hitem⟩ := hset
    have hbusy₂ := (hbusy.grows hkeeps.grows).grows hkept.keeps.grows
    refine (ih (fun t ht => hrules t (mem_cons_of_mem _ ht)) hkept.object hkept.type hbusy₂
      hfirst.records).mono fun state₃ img₃ hrest => ?_
    obtain ⟨o₃, hkept', hothers⟩ := hrest
    obtain ⟨hall, hword⟩ := hkept.step hitem hkept'
    refine ⟨o₃, hall.after hkeeps, hothers.records, fun _ h => hothers.log (hfirst.log h), ?_, ?_⟩
    · rintro hright ⟨hagrees, hagrees'⟩
      obtain ⟨hrule, hright₁⟩ := hfirst.right hright hagrees
      obtain ⟨hitems, hright₃⟩ := hothers.right
        (hright₁.carries (hkept.keeps.carries_busy hlist)) hagrees'
      refine ⟨fun hfits => ⟨?_, hitems ?_⟩, hright₃⟩
      · rw [hword hfits]
        exact hrule.carries (hall.keeps.carries_busy hlist)
      · rw [length_cons] at hfits
        rw [hkept.size]
        omega
    · intro img'' hright
      exact ⟨hfirst.agrees img'' (hright.of_subset hothers.log), hothers.agrees img'' hright⟩

theorem returns_createList (hrules : ∀ t ∈ rules, t.Loads) (hlaid : WellLaid img)
    (hbusy : BusyIn busy img) (hrecords : state.Records seen) :
    FileReturns (createList rules (addRules rules 0) state) img fun stored img' =>
      Keeps [] img img' ∧
        Loaded busy img state (seenAfterList rules seen) (ListAgrees rules seen) img' stored.2
          (rules.length < 2 ^ 32 → ListAt busy img' (unfoldList rules) stored.1) := by
  cases rules with
  | nil =>
    exact .ret ⟨.refl img, hrecords, fun _ h => h,
      fun hright _ => ⟨fun _ => .inl ⟨rfl, rfl⟩, hright⟩,
      fun _ _ => trivial⟩
  | cons t rules =>
    refine (returns_appendObject hlaid _).bind fun list img₁ happended => ?_
    obtain ⟨hkeeps, hfresh, o, ho, htype, hbody⟩ := happended
    have hend : img.length ≤ list.toNat := Nat.le_of_eq hfresh.symm
    have hbusy₁ : BusyIn (list.toNat :: busy) img₁ := by
      intro p hp
      rcases mem_cons.1 hp with rfl | hp
      · exact ⟨o, ho⟩
      · exact hbusy.grows hkeeps.grows p hp
    refine (returns_addRules hrules ho htype mem_cons_self hbusy₁ hrecords).bind
      fun state₂ img₂ hfilled => ?_
    obtain ⟨o₂, hkept, hloaded⟩ := hfilled
    refine .ret ⟨hkeeps.trans_fresh hkept.keeps hend, hloaded.records, hloaded.log, ?_,
      hloaded.agrees⟩
    intro hright hagrees
    obtain ⟨hitems, hright₂⟩ := hloaded.right (hright.carries (hkeeps.carries_fresh hend)) hagrees
    refine ⟨fun hlt => ?_, hright₂.carries (carries_done _)⟩
    have hlength := length_unfoldList (t :: rules)
    refine hkept.listAt ?_ (by rw [hlength]; exact hlt) (cons_ne_nil _ _)
      (hbusy.notMem hend) (by rw [hlength]; exact hitems)
    rw [hbody, NewObject.word_objectlist, hlength]

/-- The offset of a list is looked up, and the list is stored if there is none. -/
theorem returns_getRuleTreeOffset (hrules : ∀ t ∈ rules, t.Loads) (hlaid : WellLaid img)
    (hbusy : BusyIn busy img) (hrecords : state.Records seen) :
    FileReturns (getRuleTreeOffsetForRuleList rules (addRules rules 0) state) img fun found img' =>
      Keeps [] img img' ∧
        Loaded busy img state (seenAfterLink rules (seenAfterList rules) seen)
          (LinkAgrees rules (ListAgrees rules) seen) img' found.2
          (ListAt busy img' (unfoldList rules) found.1) := by
  cases rules with
  | nil =>
    have hnil : ListAt busy img (unfoldList []) 0 := .inl ⟨rfl, rfl⟩
    exact .ret ⟨.refl img, hrecords.note [] 0, subset_cons_self _ _,
      fun hright _ => ⟨hnil, hright.note hnil⟩, fun _ _ => trivial⟩
  | cons first rules =>
    unfold getRuleTreeOffsetForRuleList seenAfterLink LinkAgrees
    cases hoffs : state.ruleTreeOffset first.ident with
    | some offs =>
      obtain ⟨stored, hseen, hmem⟩ := hrecords.stored _ _ hoffs
      simp only [hoffs, hseen]
      refine .ret ⟨.refl img, hrecords.note _ offs, subset_cons_self _ _, ?_, ?_⟩
      · intro hright hagrees
        have hlist : ListAt busy img (unfoldList (first :: rules)) offs :=
          hagrees ▸ hright _ hmem
        exact ⟨hlist, hright.note hlist⟩
      · -- both lists are at one offset
        intro img'' hright
        exact ListAt.unique (hright _ (mem_cons_of_mem _ hmem)) (hright _ mem_cons_self)
    | none =>
      simp only [hoffs, hrecords.fresh _ hoffs]
      refine (returns_createList hrules hlaid hbusy hrecords).bind fun stored img₁ hstored => ?_
      obtain ⟨hkeeps, hloaded⟩ := hstored
      refine .ret ⟨hkeeps, hloaded.records.setOffset _ _ _,
        fun _ h => mem_cons_of_mem _ (hloaded.log h), ?_, ?_⟩
      · rintro hright ⟨hlt, hagrees⟩
        obtain ⟨hlist, hright₁⟩ := hloaded.right hright hagrees
        exact ⟨hlist hlt, LoaderState.Right.note hright₁ (hlist hlt)⟩
      · intro img'' hright
        have hlist : ListAt [] img'' (unfoldList (first :: rules)) stored.1 :=
          hright _ mem_cons_self
        have hlt := hlist.length_lt
        rw [length_unfoldList] at hlt
        exact ⟨hlt, hloaded.agrees img'' fun e he => hright e (mem_cons_of_mem _ he)⟩

theorem returns_linkProgram {t : LuaTable}
    (hlink : ∀ rules, t.link = some rules → ∀ r ∈ rules, r.Loads) (hlaid : WellLaid img)
    (hbusy : BusyIn busy img) (hrecords : state.Records seen) {unionLink : Offset}
    (hunion : ListAt busy img (t.rule.unionDirs.map .text) unionLink) :
    FileReturns (t.linkProgram unionLink state) img fun found img' => Keeps [] img img' ∧
      Loaded busy img state (t.seenAfter seen) (t.Agrees seen) img' found.2
        (ListAt busy img' t.unfoldLink found.1) := by
  rw [t.seenAfter_eq, t.agrees_eq]
  unfold LuaTable.linkProgram LuaTable.unfoldLink
  cases hrules : t.link with
  | none =>
    exact .ret ⟨.refl img, hrecords, fun _ h => h, fun hright _ => ⟨hunion, hright⟩,
      fun _ _ => trivial⟩
  | some rules => exact returns_getRuleTreeOffset (hlink rules hrules) hlaid hbusy hrecords

theorem LuaTable.loads (t : LuaTable) : t.Loads := by
  induction t using LuaTable.induct with
  | table t ih =>
    intro busy img state seen hlaid hbusy hrecords
    rw [t.addOneRule_eq, t.unfold_eq]
    refine (returns_unionDirList hlaid hbusy _).bind fun unionLink img₁ hunion => ?_
    obtain ⟨hkeeps₁, hunion⟩ := hunion
    have hlaid₁ := hlaid.grows hkeeps₁.grows
    have hbusy₁ := hbusy.grows hkeeps₁.grows
    refine (returns_linkProgram ih hlaid₁ hbusy₁ hrecords hunion).bind fun found img₂ hfound => ?_
    obtain ⟨hkeeps₂, hloaded⟩ := hfound
    refine (returns_finishRule (hlaid₁.grows hkeeps₂.grows) (hbusy₁.grows hkeeps₂.grows) t.rule
      t.hasActions t.hasRules found t.unfoldLink).mono fun added img₃ hadded => ?_
    obtain ⟨hkeeps₃, hstate, hstored⟩ := hadded
    rw [hstate]
    refine ⟨hkeeps₁.trans (hkeeps₂.trans hkeeps₃), hloaded.records, hloaded.log, ?_,
      hloaded.agrees⟩
    intro hright hagrees
    obtain ⟨hlist, hright₂⟩ := hloaded.right (hright.carries hkeeps₁.carries) hagrees
    exact ⟨hstored hlist, hright₂.carries hkeeps₃.carries⟩

end Loader

/-! ## Sessions -/

def ForestAt (img : Image) (forest : List (Option (List LuaTable))) (offs : List Offset) : Prop :=
  List.Forall₂ (fun rules o => ListAt [] img (unfoldList (rules.getD [])) o) forest offs

section Forest

variable {img img' : Image} {state : LoaderState} {seen : Seen}

theorem returns_addLuaRules (rules : Option (List LuaTable)) (hlaid : WellLaid img)
    (hrecords : state.Records seen) :
    FileReturns (addLuaRules rules state) img fun added img' => Keeps [] img img' ∧
      Loaded [] img state (seenAfterList (rules.getD []) seen) (ListAgrees (rules.getD []) seen)
        img' added.2 ((rules.getD []).length < 2 ^ 32 →
          ListAt [] img' (unfoldList (rules.getD [])) added.1) := by
  have hbusy : BusyIn [] img := nofun
  have hcreate : addLuaRules rules state =
      createList (rules.getD []) (addRules (rules.getD []) 0) state := by
    cases rules with
    | none => rfl
    | some rules => rfl
  rw [hcreate]
  exact returns_createList (fun t _ => t.loads) hlaid hbusy hrecords

theorem returns_loadForest (forest : List (Option (List LuaTable))) (hlaid : WellLaid img)
    (hrecords : state.Records seen) :
    FileReturns (loadForest forest state) img fun loaded img' => Keeps [] img img' ∧
      state.returned ⊆ loaded.2.returned ∧
      (state.Right [] img → ForestAgrees forest seen →
        ForestAt img' forest loaded.1 ∧ loaded.2.Right [] img') ∧
      ∀ img'', ForestAt img'' forest loaded.1 → loaded.2.Right [] img'' →
        ForestAgrees forest seen := by
  induction forest generalizing img state seen with
  | nil =>
    exact .ret ⟨.refl img, fun _ h => h, fun hright _ => ⟨.nil, hright⟩, fun _ _ _ => trivial⟩
  | cons rules forest ih =>
    refine (returns_addLuaRules rules hlaid hrecords).bind fun added img₁ hadded => ?_
    obtain ⟨hkeeps, hfirst⟩ := hadded
    refine (ih (hlaid.grows hkeeps.grows) hfirst.records).bind fun rest img₂ hrest => ?_
    obtain ⟨hkeeps', hlog, hforest, hforest'⟩ := hrest
    refine .ret ⟨hkeeps.trans hkeeps', fun _ h => hlog (hfirst.log h), ?_, ?_⟩
    · rintro hright ⟨hlt, hagrees, hagrees'⟩
      obtain ⟨hlist, hright₁⟩ := hfirst.right hright hagrees
      obtain ⟨hlists, hright₂⟩ := hforest hright₁ hagrees'
      exact ⟨.cons ((hlist hlt).carries hkeeps'.carries) hlists, hright₂⟩
    · rintro img'' (_ | ⟨hlist, hlists⟩) hright
      have hlt := hlist.length_lt
      rw [length_unfoldList] at hlt
      exact ⟨hlt, hfirst.agrees img'' (hright.of_subset hlog), hforest' img'' hlists hright⟩

end Forest

/-- The lists of a session are in the file as they are in the tables, and every list that a rule
leads to is the one that was looked up for it, exactly if the lists agree. -/
theorem loaded_forest_unfolds_iff (forest : List (Option (List LuaTable))) {start : Image}
    (hstart : WellLaid start)
    (hlimit : (fileAfter (loadForest forest .initial) start).length < 2 ^ 32) :
    ∃ offs state, resultOf (loadForest forest .initial) start = .ok (offs, state) ∧
      ((ForestAt (fileAfter (loadForest forest .initial) start) forest offs ∧
          state.Right [] (fileAfter (loadForest forest .initial) start)) ↔
        ForestAgrees forest fun _ => none) := by
  have hrecords : LoaderState.initial.Records fun _ => none := ⟨nofun, fun _ _ => rfl⟩
  have hnothing : LoaderState.initial.Right [] start := nofun
  obtain ⟨⟨offs, state⟩, hresult, -, -, hagrees, hright⟩ :=
    (returns_loadForest forest hstart hrecords).sound (rely_of_length _ hlimit)
  exact ⟨offs, state, hresult, fun h => hright _ h.1 h.2, hagrees hnothing⟩

def conditionalRule (ident : Nat) (actions : List LuaTable) : LuaTable :=
  { ident, rule := { selPath := some ['/'] }, actions := some actions }

def origPathAction : LuaTable := { ident := 1, rule := { useOrigPath := true } }

def mapToAction : LuaTable := { ident := 2, rule := { mapTo := some ['/', 't'] } }

/-- Two rules with the same actions. -/
theorem shared_actions_unfold :
    ∃ offs state, resultOf (loadForest [some [conditionalRule 3 [origPathAction, mapToAction],
        conditionalRule 4 [origPathAction, mapToAction]]] .initial)
          (createRuletreeFile 4096 0 0) = .ok (offs, state) ∧
      ForestAt (fileAfter (loadForest [some [conditionalRule 3 [origPathAction, mapToAction],
          conditionalRule 4 [origPathAction, mapToAction]]] .initial)
            (createRuletreeFile 4096 0 0))
        [some [conditionalRule 3 [origPathAction, mapToAction],
          conditionalRule 4 [origPathAction, mapToAction]]] offs := by
  obtain ⟨offs, state, hresult, hiff⟩ := loaded_forest_unfolds_iff
    [some [conditionalRule 3 [origPathAction, mapToAction],
      conditionalRule 4 [origPathAction, mapToAction]]]
    ⟨_, laid_createRuletreeFile 4096 0 0⟩ (by decide +kernel)
  have hagrees : ForestAgrees [some [conditionalRule 3 [origPathAction, mapToAction],
      conditionalRule 4 [origPathAction, mapToAction]]] fun _ => none :=
    ⟨by decide, ⟨⟨by decide, trivial, trivial, trivial⟩, rfl, trivial⟩, trivial⟩
  exact ⟨offs, state, hresult, (hiff.2 hagrees).1⟩

/-- Two rules whose actions begin with the same one. The second rule leads to the list of the
first one, and its second action is missing. -/
theorem shared_first_rule_shortens_list :
    resultOf (loadForest [some [conditionalRule 3 [origPathAction],
        conditionalRule 4 [origPathAction, mapToAction]]] .initial >>= fun loaded =>
      return loaded.1) (createRuletreeFile 4096 0 0) = .ok [40] ∧
    (conditionalRule 4 [origPathAction, mapToAction]).link.map List.length = some 2 ∧
    resultOf (objectlistGetItem 40 1 >>= fun rule => load rule 28 >>= objectlistGetListSize)
      (fileAfter (loadForest [some [conditionalRule 3 [origPathAction],
        conditionalRule 4 [origPathAction, mapToAction]]] .initial)
          (createRuletreeFile 4096 0 0)) = .ok 1 := by
  refine ⟨?_, rfl, ?_⟩
  · decide +kernel
  · decide +kernel

end Scratchbox
