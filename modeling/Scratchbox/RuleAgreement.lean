import Scratchbox.Engine
import Scratchbox.ResolutionAnswers

/-!
# The returned rule belongs to the returned path

`sb_path_resolution` selects a rule anew at every symbolic link. The rule it
returns is the one that `ruletree_find_rule` selects for the path it returns, so
the translation in the engine never uses a rule that was selected for an earlier
spelling of the path.
-/

namespace Scratchbox

open CallTree

/-- A success is reported as one path without an error, and the rule is the one
selected for that path. -/
def RuleAgrees (session : Session) (ctx : PathMappingContext) (a : Answer) : Prop :=
  ∀ rule, a.rule = some rule → ∃ path minPathLen,
    a.res.mresResultBuf = some path ∧ a.res.mresResultPath = some path ∧
    a.res.mresErrno = none ∧
    ruletreeFindRule ctx path session.fwdRules = some (rule, minPathLen)

theorem ruleAgrees_none (session : Session) (ctx : PathMappingContext) {a : Answer}
    (h : a.rule = none) : RuleAgrees session ctx a := by
  intro rule hrule
  rw [h] at hrule
  cases hrule

theorem levelRule_agrees (session : Session) (ctx : PathMappingContext) :
    LevelRule session ctx anyContract (RuleAgrees session ctx)
      fun _ res _ => res.mresErrno = none where
  tooDeep _ := ruleAgrees_none session ctx rfl
  fault _ _ := trivial
  answer hinv hlevel _ := by
    obtain ⟨-, -, hcases⟩ := resolveUpToSymlink_cases hlevel
    cases hcases with
    | noRule hnone _ _ => exact ruleAgrees_none session ctx hnone
    | failed _ => exact ruleAgrees_none session ctx rfl
    | finish hfind hres =>
      intro rule hrule
      cases hrule
      exact ⟨_, _, rfl, rfl, hres.errno.trans hinv, hfind⟩
  relative _ _ _ := trivial
  symlink hinv hlevel _ _ _ := by
    obtain ⟨-, -, hcases⟩ := resolveUpToSymlink_cases hlevel
    cases hcases with
    | symlink _ hres _ =>
      refine (sat_trivial _).mono fun r _ => ?_
      cases r with
      | error err => exact ruleAgrees_none session ctx rfl
      | ok list => exact hres.errno.trans hinv

/-- Whenever `sb_path_resolution` returns a rule, it is the one selected for the
path it returns, in the same context; the engine translates that path with it. -/
theorem resolution_rule_agrees {session : Session} {q : Question} {es : List Event} {a : Answer}
    {rule : FsRule} (h : Answers (resolutionBody session) q es a) (hrule : a.rule = some rule) :
    ∃ path minPathLen,
      a.res.mresResultBuf = some path ∧ a.res.mresResultPath = some path ∧
      a.res.mresErrno = none ∧
      ruletreeFindRule q.ctx path session.fwdRules = some (rule, minPathLen) ∧
      ∀ res res', a.res.mresErrormsg = none → mapResolvedPath session res a = .ok res' →
        ∃ t, ruletreeTranslatePath session.host
            ((ruletreeFindRule q.ctx path session.fwdRules).map Prod.fst) path = .ok t ∧
          res'.mresResultBuf = t.hostPath := by
  have hbody : CallTree.Keeps anyContract (resolutionBody session) :=
    fun q _ => (sat_trivial (resolutionBody session q)).mono fun _ _ => trivial
  have hsat : (resolutionBody session q).Sat anyContract (RuleAgrees session q.ctx) :=
    (levelRule_agrees session q.ctx).sat maxNesting rfl
  obtain ⟨path, minPathLen, hbuf, hpath, herrno, hfind⟩ :=
    hsat.sound hbody h (fun _ _ => trivial) rule hrule
  refine ⟨path, minPathLen, hbuf, hpath, herrno, hfind, fun res res' hmsg hmap => ?_⟩
  unfold mapResolvedPath at hmap
  rw [hmsg, herrno, hpath, hrule] at hmap
  obtain ⟨t, ht, hmap⟩ := Except.bind_eq_ok_iff.1 hmap
  refine ⟨t, by rw [hfind]; exact ht, ?_⟩
  cases herr : t.errormsg with
  | some errormsg =>
    simp only [herr] at hmap
    cases hmap
    rfl
  | none =>
    simp only [herr] at hmap
    cases hmap
    rfl

/-- `/a` is a symbolic link to `b/c`; looking up `/a/x` returns the rule selected
for `/b/c/x`. -/
theorem resolution_rule_agrees_behind_link :
    ∃ path minPathLen, path = "/b/c/x".toList ∧
      ruletreeFindRule exampleContext path [rootRule] = some (rootRule, minPathLen) := by
  have hanswer :
      level (resolutionBody (linkSession [("/a".toList, ⟨"b/c".toList, by decide⟩)] none))
      1 ⟨exampleContext, splitPathToPathList "/a/x".toList⟩ =
        ([.symlink ⟨"b/c".toList, by decide⟩], .ok ⟨some rootRule,
          { mresResultBuf := some "/b/c/x".toList, mresResultPath := some "/b/c/x".toList }⟩) := by
    rfl
  obtain ⟨path, minPathLen, hbuf, -, -, hfind, -⟩ :=
    resolution_rule_agrees (answers_of_level hanswer) rfl
  exact ⟨path, minPathLen, (Option.some.inj hbuf).symm, hfind⟩

end Scratchbox
