import Mathlib.Data.Int.Lemmas
import RatboxServices.Serv.RegCommand

namespace RatboxServices

open Regs

/-! What an account gains by its age before `e_user_expire` frees it. -/

namespace Bonus

variable {conf : ServConfig} {age younger older : Int}

/-- The settings as `conf_set_generic_int` stores them. -/
structure Settings (conf : ServConfig) : Prop where
  regtime : 0 ≤ conf.uexpireBonusRegtime ∧ conf.uexpireBonusRegtime < 2147483648
  bonus : 0 ≤ conf.uexpireBonus ∧ conf.uexpireBonus < 2147483648
  perTime : 0 ≤ conf.uexpireBonusPerTime ∧ conf.uexpireBonusPerTime < 2147483648
  max : 0 ≤ conf.uexpireBonusMax ∧ conf.uexpireBonusMax < 2147483648

def Granted (conf : ServConfig) (age : Int) : Prop :=
  conf.uexpireBonusPerTime ≠ 0 ∧ conf.uexpireBonus ≠ 0 ∧
    conf.uexpireBonusRegtime ≤ age

def earned (conf : ServConfig) (age : Int) : Int :=
  age / conf.uexpireBonusPerTime * conf.uexpireBonus

def documented (conf : ServConfig) (age : Int) : Int :=
  if conf.uexpireBonusPerTime = 0 ∨ conf.uexpireBonus = 0 then 0
  else if age < conf.uexpireBonusRegtime then 0
  else if conf.uexpireBonusMax = 0 then earned conf age
  else min (earned conf age) conf.uexpireBonusMax

def Aging (reg : UserReg) : Prop :=
  reg.flags.has usFlagsNeverloggedin = false ∧
    reg.flags.has usFlagsSuspended = false

structure Fair (conf : ServConfig) (younger older : Int) : Prop where
  younger_eq : expireBonus conf younger = documented conf younger
  older_eq : expireBonus conf older = documented conf older
  nonneg : 0 ≤ expireBonus conf younger ∧ 0 ≤ expireBonus conf older
  mono : expireBonus conf younger ≤ expireBonus conf older
  order : ∀ (s : Regs) (now : Int) (first second : UserRegId)
    (old new : UserReg), s.user.cell first = some old →
      s.user.cell second = some new → Aging old → Aging new →
        now - old.regTime = older → now - new.regTime = younger →
          old.lastTime = new.lastTime →
            old.users.isEmpty = new.users.isEmpty →
              (expireUser conf now s first).user.cell first = none →
                (expireUser conf now s second).user.cell second = none

/-- What was earned fits an `int`, or it is cut down to the limit though it was
reduced to an `unsigned int` before. -/
def Fits (conf : ServConfig) (age : Int) : Prop :=
  Granted conf age →
    if conf.uexpireBonusMax = 0 then earned conf age < 2147483648
    else earned conf age < 4294967296 ∨
      conf.uexpireBonusMax ≤ earned conf age % 4294967296

theorem expireBonus_of_not_granted (without : ¬Granted conf age) :
    expireBonus conf age = 0 ∧ documented conf age = 0 := by
  unfold expireBonus documented
  by_cases off : conf.uexpireBonusPerTime = 0 ∨ conf.uexpireBonus = 0
  · rw [if_pos off, if_pos off]
    exact ⟨rfl, rfl⟩
  · have young : age < conf.uexpireBonusRegtime := by
      by_contra late
      exact without ⟨fun zero => off (Or.inl zero),
        fun zero => off (Or.inr zero), Int.not_lt.mp late⟩
    rw [if_neg off, if_neg off, if_pos young, if_pos young]
    exact ⟨rfl, rfl⟩

theorem earned_nonneg (settings : Settings conf) (granted : Granted conf age) :
    0 ≤ earned conf age := by
  have old : 0 ≤ age := le_trans settings.regtime.1 granted.2.2
  apply Int.mul_nonneg
  · exact Int.ediv_nonneg old settings.perTime.1
  · exact settings.bonus.1

theorem expireBonus_of_granted (settings : Settings conf)
    (granted : Granted conf age) :
    expireBonus conf age =
      if conf.uexpireBonusMax ≠ 0 ∧
          conf.uexpireBonusMax < earned conf age % 4294967296 then
        conf.uexpireBonusMax
      else (earned conf age % 4294967296).bmod 4294967296 := by
  obtain ⟨perTime, bonus, late⟩ := granted
  have old : 0 ≤ age := le_trans settings.regtime.1 late
  have same : conf.uexpireBonusMax % 4294967296 = conf.uexpireBonusMax := by
    have := settings.max
    omega
  unfold expireBonus earned
  rw [if_neg (by simp [perTime, bonus]), if_neg (Int.not_lt.mpr late),
    Int.tdiv_eq_ediv_of_nonneg old, same]

theorem documented_of_granted (granted : Granted conf age) :
    documented conf age =
      if conf.uexpireBonusMax = 0 then earned conf age
      else min (earned conf age) conf.uexpireBonusMax := by
  obtain ⟨perTime, bonus, late⟩ := granted
  unfold documented
  rw [if_neg (by simp [perTime, bonus]), if_neg (Int.not_lt.mpr late)]

theorem expireBonus_eq_iff (settings : Settings conf) :
    expireBonus conf age = documented conf age ↔ Fits conf age := by
  unfold Fits
  by_cases granted : Granted conf age
  · have nonneg := earned_nonneg settings granted
    have limit := settings.max
    rw [expireBonus_of_granted settings granted, documented_of_granted granted]
    simp only [granted, true_implies]
    generalize earned conf age = product at nonneg
    generalize conf.uexpireBonusMax = max at limit
    rw [Int.bmod_def]
    by_cases unlimited : max = 0
    · rw [if_neg fun both => both.1 unlimited, if_pos unlimited,
        if_pos unlimited]
      split
      · omega
      · omega
    · rw [if_neg unlimited, if_neg unlimited]
      split
      · omega
      · split
        · omega
        · omega
  · obtain ⟨computed, spec⟩ := expireBonus_of_not_granted granted
    rw [computed, spec]
    exact iff_of_true rfl fun given => absurd given granted

theorem documented_nonneg (settings : Settings conf) :
    0 ≤ documented conf age := by
  by_cases granted : Granted conf age
  · have nonneg := earned_nonneg settings granted
    have limit := settings.max
    rw [documented_of_granted granted]
    split
    · exact nonneg
    · exact le_min nonneg limit.1
  · rw [(expireBonus_of_not_granted granted).2]

theorem documented_mono (settings : Settings conf) (le : younger ≤ older) :
    documented conf younger ≤ documented conf older := by
  by_cases granted : Granted conf younger
  · have later : Granted conf older :=
      ⟨granted.1, granted.2.1, le_trans granted.2.2 le⟩
    have product : earned conf younger ≤ earned conf older := by
      apply Int.mul_le_mul_of_nonneg_right
      · have positive : 0 < conf.uexpireBonusPerTime :=
          lt_of_le_of_ne settings.perTime.1 (Ne.symm granted.1)
        exact Int.ediv_le_ediv positive le
      · exact settings.bonus.1
    rw [documented_of_granted granted, documented_of_granted later]
    split
    · exact product
    · exact min_le_min_right _ product
  · rw [(expireBonus_of_not_granted granted).2]
    exact documented_nonneg settings

theorem expireUser_frees_iff {s : Regs} {now : Int} {account : UserRegId}
    {reg : UserReg} (found : s.user.cell account = some reg)
    (aging : Aging reg) :
    (expireUser conf now s account).user.cell account = none ↔
      (if reg.users.isEmpty then reg.lastTime else now) + conf.uexpireTime +
        expireBonus conf (now - reg.regTime) ≤ now := by
  unfold expireUser
  rw [found]
  dsimp only
  rw [aging.1, aging.2]
  simp only [Bool.false_and, Bool.false_eq_true, if_false]
  generalize (if reg.users.isEmpty then reg.lastTime else now) = lastTime
  have there : ∃ after, (s.modifyUser account fun reg =>
      { reg with
        lastTime := lastTime
        flags := reg.flags.clear usFlagsNeedupdate }).user.cell account =
          some after := by
    unfold modifyUser
    simp [found]
  obtain ⟨after, used⟩ := there
  split
  · rename_i kept
    rw [used]
    exact iff_of_false (by simp) (Int.not_le.mpr kept)
  · rename_i freed
    refine iff_of_true ?_ (Int.not_lt.mp freed)
    unfold freeUserReg
    rw [used]
    dsimp only
    rw [Heap.free_cell, if_pos rfl]

/-- The bonus is what the documentation says, and grows with the age, if and
only if it fits for both ages. -/
theorem fair_iff_fits (settings : Settings conf) (le : younger ≤ older) :
    Fair conf younger older ↔ Fits conf younger ∧ Fits conf older := by
  constructor
  · intro fair
    exact ⟨(expireBonus_eq_iff settings).mp fair.younger_eq,
      (expireBonus_eq_iff settings).mp fair.older_eq⟩
  · rintro ⟨fitsYounger, fitsOlder⟩
    have young := (expireBonus_eq_iff settings).mpr fitsYounger
    have old := (expireBonus_eq_iff settings).mpr fitsOlder
    have mono : expireBonus conf younger ≤ expireBonus conf older := by
      rw [young, old]
      exact documented_mono settings le
    refine ⟨young, old, ?_, mono, ?_⟩
    · rw [young, old]
      exact ⟨documented_nonneg settings, documented_nonneg settings⟩
    · intro s now first second old new here there agingOld agingNew ageOld
        ageNew lastTime users freed
      have due := (expireUser_frees_iff here agingOld).mp freed
      apply (expireUser_frees_iff there agingNew).mpr
      rw [ageOld, users, lastTime] at due
      rw [ageNew]
      omega

/-- The default settings, eight weeks and twelve weeks after registration. -/
theorem fair_default :
    Fair (setDefaultConf "services.".toList) 4838400 7257600 :=
  (fair_iff_fits ⟨by decide, by decide, by decide, by decide⟩ (by decide)).mpr
      ⟨fun _ => by decide, fun _ => by decide⟩

def perMinute : ServConfig :=
  { setDefaultConf "services.".toList with
    uexpireBonusPerTime := 60
    uexpireBonusMax := 0 }

/-- After eight weeks the bonus is negative. -/
theorem not_fair_perMinute :
    Settings perMinute ∧ ¬Fair perMinute 4838400 4838400 := by
  refine ⟨⟨by decide, by decide, by decide, by decide⟩, fun fair => ?_⟩
  exact absurd fair.nonneg.1 (by decide)

end Bonus

end RatboxServices
