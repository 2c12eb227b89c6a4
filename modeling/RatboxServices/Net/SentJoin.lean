import RatboxServices.Net.HookCall
import RatboxServices.Net.SentModes

namespace RatboxServices

open CString

/-! The `SJOIN` that a joining service sends, and what `c_sjoin` makes of it
when it is received. -/

namespace Chmode

theorem isWord_sentLetters (mode : Chmode) : IsWord mode.sentLetters := by
  have noSpace : ' ' ∉ mode.entries.map Prod.snd := by
    intro listed
    obtain ⟨entry, given, same⟩ := List.mem_map.mp listed
    have known : ∀ entry ∈ chmodeTable, entry.2 ≠ ' ' := by decide
    exact known entry (mode.entries_known entry given) same
  refine ⟨by simp [sentLetters], ?_, by simp [sentLetters]⟩
  unfold sentLetters
  by_cases limit : mode.limit = 0 <;> by_cases key : mode.key = [] <;>
    simp [limit, key, noSpace]

theorem isWord_sentWords {mode : Chmode}
    (key : mode.key = [] ∨ IsWord mode.key) :
    ∀ word ∈ mode.sentWords, IsWord word := by
  intro word listed
  obtain rfl | listed := List.mem_cons.mp listed
  · exact mode.isWord_sentLetters
  · obtain limit | keyed := List.mem_append.mp listed
    · split at limit
      · rw [List.mem_singleton.mp limit]
        exact isWord_formatInt _
      · cases limit
    · split at keyed
      · rename_i given
        rw [List.mem_singleton.mp keyed]
        exact key.resolve_left given
      · cases keyed

theorem length_sentWords (mode : Chmode) : mode.sentWords.length ≤ 3 := by
  unfold sentWords sentParams
  by_cases limit : mode.limit = 0 <;> by_cases key : mode.key = [] <;>
    simp [limit, key]

end Chmode

namespace State

/-- What follows the command in the `SJOIN` that `join_service` sends for a
channel. -/
def sjoinText (ch : Channel) (uid : CString) : CString :=
  formatUlong ch.tsinfo ++ " ".toList ++ ch.name ++ " ".toList ++
    ch.mode.chmodeToString ++ " :@".toList ++ uid

def sjoinParv (ch : Channel) (uid : CString) : List CString :=
  formatUlong ch.tsinfo :: ch.name :: ch.mode.sentWords ++ ['@' :: uid]

theorem sjoinText_eq (ch : Channel) (uid : CString) :
    sjoinText ch uid =
      spaced (formatUlong ch.tsinfo :: ch.name :: ch.mode.sentWords) ++
        ':' :: '@' :: uid := by
  have modes := ch.mode.chmodeToString_eq
  unfold spaced at modes ⊢
  rw [List.flatMap_cons, List.flatMap_cons, ← modes]
  simp [sjoinText]

theorem stringToArray_sjoinText {split : CString → List CString}
    (splits : SplitsParams split) {ch : Channel} (uid : CString)
    (name : IsWord ch.name) (key : ch.mode.key = [] ∨ IsWord ch.mode.key) :
    split (sjoinText ch uid) = sjoinParv ch uid := by
  rw [sjoinText_eq, splits.trailing, sjoinParv]
  · intro word listed
    obtain rfl | listed := List.mem_cons.mp listed
    · exact isWord_decimal _
    · obtain rfl | listed := List.mem_cons.mp listed
      · exact name
      · exact Chmode.isWord_sentWords key word listed
  · have short := ch.mode.length_sentWords
    simp only [List.length_cons]
    omega

structure ServiceName (s : State) (uid : CString) : Prop where
  noSpace : ' ' ∉ uid
  plain : uid.head? ≠ some '+'
  stranger : s.clients.findUser uid true = none

structure Unhooked (env : Env) : Prop where
  lowerts : ∀ s chptr, env.hooks.sjoinLowerts s chptr = none
  join : ∀ s chptr joined, env.hooks.channelJoin s chptr joined = []

section Sent

variable {env : Env} {s : State} {now : Int} {clientP : ClientId}
  {client : Client} {ch : Channel} {uid : CString}

/-- The `SJOIN` as it is read. -/
def sentCall (client : Client) (ch : Channel) (uid : CString)
    (newmode : Chmode) : SjoinCall :=
  ⟨⟨ch.name, atol (formatUlong ch.tsinfo)⟩, !client.uid.isEmpty, newmode,
    ['@' :: uid]⟩

theorem sjoinHeard_sent (valid : Chans.validChname ch.name = true) :
    sjoinHeard (sjoinParv ch uid) = true := by
  have fourth : lacks (sjoinParv ch uid) 4 3 = false := by
    have number := (isWord_formatInt ch.mode.limit).given
    unfold lacks sjoinParv Chmode.sentWords Chmode.sentParams
    by_cases limit : ch.mode.limit = 0 <;> by_cases key : ch.mode.key = [] <;>
      simp [limit, key, number]
  have second : (sjoinParv ch uid).getD 1 [] = ch.name := rfl
  rw [sjoinHeard, fourth, second, valid]
  rfl

theorem sjoinParse_sent (low : -2147483648 ≤ ch.mode.limit)
    (high : ch.mode.limit < 2147483648) :
    sjoinParse ((sjoinParv ch uid).getD 2 []) (sjoinParv ch uid) =
      ch.mode.readBack.map fun newmode => (newmode, ['@' :: uid]) := by
  have letters : (ch.mode.sentLetters == ['0']) = false := by
    simp [Chmode.sentLetters]
  unfold sjoinParse
  show (if (ch.mode.sentLetters == ['0']) = true then _ else _) = _
  rw [letters]
  exact Chmode.parseSimpleMode_sent low high ['@' :: uid]

theorem sjoinCall_sent (known : s.clients.client.cell clientP = some client)
    (valid : Chans.validChname ch.name = true)
    (low : -2147483648 ≤ ch.mode.limit) (high : ch.mode.limit < 2147483648) :
    s.sjoinCall clientP (sjoinParv ch uid) =
      ch.mode.readBack.map (sentCall client ch uid) := by
  unfold sjoinCall
  rw [sjoinHeard_sent valid, sjoinParse_sent low high, known]
  cases ch.mode.readBack with
  | none => rfl
  | some newmode => rfl

theorem entered_sent (service : ServiceName s uid) {newmode : Chmode}
    (same : ((sentCall client ch uid newmode).lowered s env).clients =
      s.clients) :
    (sentCall client ch uid newmode).entered s env =
      (((sentCall client ch uid newmode).lowered s env).chans, []) := by
  have whole : nickTokens (('@' :: uid).length + 1) ('@' :: uid) =
      ['@' :: uid] := by
    have none_ : cut ' ' ('@' :: uid) = ('@' :: uid, none) :=
      cut_of_not_mem (by simp [service.noSpace])
    simp [nickTokens, none_]
  have nick : nickPrefix ('@' :: uid) = (true, false, uid) := by
    cases shape : uid with
    | nil => rfl
    | cons c rest =>
        have other : c ≠ '+' := by
          rintro rfl
          exact service.plain (by simp [shape])
        simp [nickPrefix, other]
  unfold SjoinCall.entered
  show List.foldl _ _ (nickTokens (('@' :: uid).length + 1) ('@' :: uid)) = _
  rw [whole, List.foldl_cons, List.foldl_nil, sjoinNick, nick, same]
  dsimp only
  rw [service.stranger]

theorem cSjoin_sent (unhooked : Unhooked env) (service : ServiceName s uid)
    {newmode : Chmode} {parv : List CString}
    (read : s.sjoinCall clientP parv = some (sentCall client ch uid newmode))
    (occupied : isFree ((sentCall client ch uid newmode).merged s).chans
      ((sentCall client ch uid newmode).target.chptr s) = false) :
    s.cSjoin env now clientP parv =
      .ok ((sentCall client ch uid newmode).merged s) := by
  have lowered : (sentCall client ch uid newmode).lowered s env =
      (sentCall client ch uid newmode).merged s := by
    unfold SjoinCall.lowered lowertsHook
    split
    · rfl
    · rw [unhooked.lowerts]
  have clients : ((sentCall client ch uid newmode).merged s).clients =
      s.clients := by
    unfold SjoinCall.merged JoinTarget.settled applyNewModes applyOldModes
    split <;> split <;> rfl
  have entered : (sentCall client ch uid newmode).entered s env =
      (((sentCall client ch uid newmode).lowered s env).chans, []) :=
    entered_sent service (by rw [lowered]; exact clients)
  rw [cSjoin_of_call read, SjoinCall.apply_eq, entered, lowered, occupied]
  split
  · rfl
  · rw [joinHook, unhooked.join]
    rfl

end Sent

end State

end RatboxServices
