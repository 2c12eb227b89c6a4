import RatboxServices.Db.Statement

namespace RatboxServices

open CString
open Format

/-! The statements of the services, by the files that print them. -/

namespace Sql

/-- The places of a format are found, and the text next to them does not
continue what is filled in. -/
structure Checked (format : CString) : Prop where
  whole : (Template.ofFormat format).format = format
  sound : (Template.ofFormat format).sound = true

instance (format : CString) : Decidable (Checked format) :=
  decidable_of_iff ((Template.ofFormat format).format = format ∧
      (Template.ofFormat format).sound = true)
    ⟨fun both => ⟨both.1, both.2⟩, fun checked => ⟨checked.1, checked.2⟩⟩

theorem checked_ofList {format : CString} (checked : Checked format) :
    Checked (String.ofList format).toList := by
  rw [String.toList_ofList]
  exact checked

structure Table where
  formats : List String
  checked : ∀ format ∈ formats, Checked format.toList := by
    simp only [List.forall_mem_cons]
    and_intros
    all_goals first
      | exact List.forall_mem_nil _
      | exact checked_ofList (by decide +kernel)

namespace Table

set_option maxRecDepth 8000

/-- `notes.c`. -/
def notes : Table where
  formats := [
    "INSERT INTO chan_note (chname, timestamp, author, flags, text) VALUES('%Q', '%lu', '%Q', '%u', '%Q')",
    "DELETE FROM chan_note WHERE id = %d",
    "SELECT id, author, timestamp, text FROM chan_note WHERE chname = '%Q' AND NOT (flags & %u) > 0 AND NOT (flags & %u) > 0 ORDER BY timestamp DESC LIMIT %d",
    "SELECT id, author, timestamp, text FROM chan_note WHERE chname = '%Q' AND NOT (flags & %u) > 0 AND NOT (flags & %u) > 0 ORDER BY timestamp DESC LIMIT %d OFFSET %d",
    "SELECT id, author, timestamp, text FROM chan_note WHERE chname = '%Q' AND (flags & %u) > 0" ]

/-- `s_banserv.c`. -/
def banserv : Table where
  formats := [
    "SELECT id, regex, reason, hold, create_time, oper FROM operbans_regexp",
    "SELECT id, parent_id, regex, oper FROM operbans_regexp_neg",
    "DELETE FROM operbans WHERE hold != '0' AND hold <= '%lu'",
    "SELECT remove FROM operbans WHERE type='%c' AND mask='%Q' LIMIT 1",
    "SELECT remove, oper FROM operbans WHERE type='%c' AND mask='%Q' LIMIT 1",
    "DELETE FROM operbans_regexp_neg WHERE parent_id='%u'",
    "DELETE FROM operbans_regexp WHERE id='%u'",
    "SELECT type, mask, reason, hold FROM operbans WHERE hold > '%lu' AND remove='0' AND type='%c'",
    "SELECT type, mask, reason, hold FROM operbans WHERE hold > '%lu' AND remove='0'",
    "SELECT type, mask, reason, hold FROM operbans WHERE hold='0' AND remove='0' AND type='%c'",
    "SELECT type, mask, reason, hold FROM operbans WHERE hold='0' AND remove='0'",
    "SELECT type, mask FROM operbans WHERE hold > '%lu' AND remove='1' AND type='%c'",
    "SELECT type, mask FROM operbans WHERE hold > '%lu' AND remove='1'",
    "UPDATE operbans SET reason='%Q', hold='%ld', oper='%Q', remove='0' WHERE type='K' AND mask='%Q'",
    "INSERT INTO operbans (type, mask, reason, hold, create_time, oper, remove, flags) VALUES('K', '%Q', '%Q', '%lu', '%lu', '%Q', '0', '0')",
    "UPDATE operbans SET reason='%Q', hold='%ld', oper='%Q', remove='0' WHERE type='X' AND mask='%Q'",
    "INSERT INTO operbans (type, mask, reason, hold, create_time, oper, remove, flags) VALUES('X', '%Q', '%Q', '%lu', '%lu', '%Q', '0', '0')",
    "UPDATE operbans SET reason='%Q', hold='%ld', oper='%Q', remove='0' WHERE type='R' AND mask='%Q'",
    "INSERT INTO operbans (type, mask, reason, hold, create_time, oper, remove, flags) VALUES('R', '%Q', '%Q', '%lu', '%lu', '%Q', '0', '0')",
    "INSERT INTO operbans_regexp (regex, reason, hold, create_time, oper) VALUES('%Q', '%Q', '%lu', '%lu', '%Q')",
    "INSERT INTO operbans_regexp_neg (parent_id, regex, oper) VALUES('%u', '%Q', '%Q')",
    "UPDATE operbans SET remove='1', hold='%lu' WHERE mask='%Q' AND type='K'",
    "UPDATE operbans SET remove='1', hold='%lu' WHERE mask='%Q' AND type='X'",
    "UPDATE operbans SET remove='1', hold='%lu' WHERE mask='%Q' AND type='R'",
    "DELETE FROM operbans_regexp_neg WHERE id='%u'",
    "SELECT mask, reason, operreason, hold, oper FROM operbans WHERE type='%c' AND remove='0' AND (hold='0' OR hold > '%lu')" ]

/-- `s_chanfix.c`. -/
def chanfix : Table where
  formats := [
    "SELECT id FROM cf_userhost WHERE userhost='%Q'",
    "SELECT id FROM cf_channel WHERE chname='%Q'",
    "SELECT flags FROM cf_channel WHERE chname='%Q'",
    "SELECT userhost_id, SUM(t) FROM   (SELECT cf_score.userhost_id, count(*) AS t   FROM cf_score WHERE channel_id = %lu   GROUP BY cf_score.userhost_id   UNION ALL   SELECT cf_score_history.userhost_id, SUM(score) AS t   FROM cf_score_history WHERE channel_id = %lu   GROUP BY cf_score_history.userhost_id) AS total_table GROUP BY total_table.userhost_id HAVING SUM(t) > %d ORDER BY SUM(t) DESC",
    "SELECT userhost_id, SUM(t) FROM   (SELECT cf_score.userhost_id, count(*) AS t   FROM cf_score WHERE channel_id = %lu   GROUP BY cf_score.userhost_id   UNION ALL   SELECT cf_score_history.userhost_id, SUM(score) AS t   FROM cf_score_history WHERE channel_id = %lu   GROUP BY cf_score_history.userhost_id) AS total_table GROUP BY total_table.userhost_id ORDER BY SUM(t) DESC",
    "SELECT COUNT(*) FROM cf_score WHERE channel_id = %lu AND userhost_id = %lu",
    "SELECT SUM(score) FROM cf_score_history WHERE channel_id = %lu AND userhost_id = %lu",
    "INSERT INTO cf_temp_score (chname, userhost, timestamp, dayts) VALUES('%Q', '%Q', '%lu', '%lu')",
    "SELECT MIN(timestamp), MAX(timestamp) FROM cf_temp_score",
    "INSERT INTO cf_channel (chname) SELECT DISTINCT cf_temp_score.chname FROM cf_temp_score LEFT JOIN cf_channel ON cf_temp_score.chname=cf_channel.chname WHERE cf_channel.id IS NULL",
    "INSERT INTO cf_userhost (userhost) SELECT DISTINCT cf_temp_score.userhost FROM cf_temp_score LEFT JOIN cf_userhost ON cf_temp_score.userhost=cf_userhost.userhost WHERE cf_userhost.id IS NULL",
    "INSERT INTO cf_score (channel_id, userhost_id, timestamp, dayts) SELECT DISTINCT cf_channel.id, cf_userhost.id, timestamp, dayts FROM cf_temp_score LEFT JOIN cf_channel ON cf_temp_score.chname=cf_channel.chname LEFT JOIN cf_userhost ON cf_temp_score.userhost=cf_userhost.userhost WHERE timestamp=%lu",
    "DELETE FROM cf_temp_score WHERE timestamp=%lu",
    "SELECT MIN(dayts) FROM cf_score",
    "INSERT INTO cf_score_history (channel_id, userhost_id, dayts, score) SELECT channel_id, userhost_id, dayts, count(*) FROM cf_score where dayts = %u GROUP BY channel_id, userhost_id, dayts",
    "DELETE FROM cf_score WHERE dayts = %lu",
    "DELETE FROM cf_score_history WHERE dayts < %lu",
    "DELETE FROM cf_userhost WHERE cf_userhost.id NOT IN   (SELECT userhost_id   FROM     (SELECT cf_score.userhost_id     FROM cf_score     GROUP BY cf_score.userhost_id     UNION ALL     SELECT cf_score_history.userhost_id     FROM cf_score_history     GROUP BY cf_score_history.userhost_id) AS comb_table)",
    "DELETE FROM cf_channel WHERE cf_channel.flags = 0 AND cf_channel.id NOT IN   (SELECT channel_id   FROM     (SELECT cf_score.channel_id     FROM cf_score     GROUP BY cf_score.channel_id     UNION ALL     SELECT cf_score_history.channel_id     FROM cf_score_history     GROUP BY cf_score_history.channel_id) AS comb_table)",
    "SELECT SUM(score)   FROM cf_score_history   WHERE channel_id = %lu AND userhost_id = %lu",
    "UPDATE cf_channel SET flags = %u WHERE chname = '%Q'",
    "INSERT INTO cf_channel (chname, flags) VALUES ('%Q', '%u')",
    "SELECT id, flags FROM cf_channel WHERE chname='%Q'",
    "UPDATE cf_channel SET flags = %u WHERE id = %lu",
    "UPDATE chan_note SET flags = (flags&%u)WHERE chname = '%Q'" ]

/-- `s_chanserv.c`. -/
def chanserv : Table where
  formats := [
    "DELETE FROM channels_dropowner WHERE chname='%Q'",
    "DELETE FROM bans WHERE chname = '%Q'",
    "DELETE FROM channels WHERE chname = '%Q'",
    "DELETE FROM members WHERE chname = '%Q'",
    "INSERT INTO channels (chname, tsinfo, reg_time, last_time, flags, createmodes) VALUES('%Q', '%lu', '%lu', '%lu', '0', '%Q')",
    "UPDATE members SET level = '%d', suspend = '0', lastmod = '%Q' WHERE chname = '%Q' AND username = '%Q'",
    "SELECT chname, topic, url, createmodes, enforcemodes, tsinfo, reg_time, last_time, flags, suspender, suspend_reason, suspend_time FROM channels",
    "SELECT chname, username, lastmod, level, flags, suspend FROM members",
    "SELECT chname, mask, reason, username, level, hold FROM bans",
    "UPDATE channels SET flags = '%d' WHERE chname = '%Q'",
    "INSERT INTO members (chname, username, lastmod, level, flags, suspend)  VALUES('%Q', '%Q', '%Q', '%u', '%d', '0')",
    "DELETE FROM members WHERE chname = '%Q' AND username = '%Q'",
    "INSERT INTO bans (chname, mask, reason, username, level, hold) VALUES('%Q', '%Q', '%Q', '%Q', '%d', '%lu')",
    "UPDATE channels SET last_time='%lu', tsinfo='%lu' WHERE chname = '%Q'",
    "UPDATE channels SET last_time = '%lu' WHERE chname = '%Q'",
    "DELETE FROM bans WHERE chname='%Q' and mask='%Q'",
    "DELETE FROM channels_dropowner WHERE time <= '%lu'",
    "UPDATE channels SET flags='%d', suspender=NULL, suspend_reason=NULL,suspend_time='0', last_time='%lu' WHERE chname='%Q'",
    "UPDATE channels SET flags='%d', suspender='%Q', suspend_reason='%Q', last_time='%lu', suspend_time='%lu' WHERE chname = '%Q'",
    "UPDATE channels SET flags='%d',suspender=NULL,suspend_reason=NULL,last_time='%lu' WHERE chname = '%Q'",
    "SELECT COUNT(chname) FROM channels_dropowner WHERE chname='%Q' AND time > '%lu'",
    "INSERT INTO channels_dropowner (chname, token, time) VALUES('%Q', '%Q', '%lu')",
    "SELECT token FROM channels_dropowner WHERE chname='%Q' AND time > '%lu'",
    "UPDATE members SET level = '%d', lastmod = '%Q' WHERE chname = '%Q' AND username = '%Q'",
    "UPDATE members SET flags = '%d', lastmod = '%Q' WHERE chname = '%Q' AND username = '%Q'",
    "UPDATE members SET suspend = '%d', lastmod = '%Q' WHERE chname = '%Q' AND username = '%Q'",
    "UPDATE members SET suspend = '0', lastmod = '%Q' WHERE chname = '%Q' AND username = '%Q'",
    "UPDATE channels SET createmodes = '%Q' WHERE chname = '%Q'",
    "UPDATE channels SET enforcemodes='%Q' WHERE chname='%Q'",
    "UPDATE channels SET topic = NULL WHERE chname = '%Q'",
    "UPDATE channels SET topic='%Q' WHERE chname='%Q'",
    "UPDATE channels SET url = NULL WHERE chname = '%Q'",
    "UPDATE channels SET url='%Q' WHERE chname='%Q'",
    "DELETE FROM bans WHERE chname = '%Q' AND mask = '%Q'",
    "UPDATE bans SET level = '%d', username = '%Q' WHERE chname = '%Q' AND mask = '%Q'" ]

/-- `s_global.c`. -/
def global : Table where
  formats := [
    "SELECT id, text FROM global_welcome",
    "DELETE FROM global_welcome WHERE id='%u'",
    "INSERT INTO global_welcome (id, text) VALUES('%u', '%Q')" ]

/-- `s_jupeserv.c`. -/
def jupeserv : Table where
  formats := [
    "SELECT servername, reason FROM jupes",
    "INSERT INTO jupes (servername, reason) VALUES('%Q', '%Q')",
    "DELETE FROM jupes WHERE servername = '%Q'" ]

/-- `s_memoserv.c`. -/
def memoserv : Table where
  formats := [
    "SELECT COUNT(*) FROM memos WHERE user_id='%d' AND (flags & %u) = 0",
    "SELECT id, source, timestamp, flags FROM memos WHERE user_id='%d'",
    "SELECT id, source, timestamp, text FROM memos WHERE user_id='%u'",
    "UPDATE memos SET flags = (flags|%u) WHERE user_id='%u'",
    "SELECT id, source, timestamp, text FROM memos WHERE user_id='%u' AND id='%u'",
    "UPDATE memos SET flags = (flags|%u) WHERE id='%u'",
    "SELECT COUNT(*) FROM memos WHERE user_id='%u'",
    "INSERT INTO memos (user_id, source, source_id, timestamp, flags, text)VALUES('%u', '%Q', '%u', '%ld', '0', '%Q')",
    "DELETE FROM memos WHERE user_id='%u'",
    "SELECT user_id FROM memos WHERE id='%u'",
    "DELETE FROM memos WHERE id='%u'" ]

/-- `s_nickserv.c`. -/
def nickserv : Table where
  formats := [
    "SELECT nickname, username, reg_time, last_time, flags FROM nicks",
    "DELETE FROM nicks WHERE nickname = '%Q'",
    "INSERT INTO nicks (nickname, username, reg_time, last_time, flags) VALUES('%Q', '%Q', '%lu', '%lu', '%u')",
    "UPDATE nicks SET flags='%d' WHERE nickname='%Q'" ]

/-- `s_operbot.c`. -/
def operbot : Table where
  formats := [
    "SELECT chname, tsinfo FROM operbot",
    "UPDATE operbot SET tsinfo = '%lu' WHERE chname = '%Q'",
    "INSERT INTO operbot (chname, tsinfo, oper) VALUES('%Q', '%lu', '%Q')",
    "DELETE FROM operbot WHERE chname = '%Q'" ]

/-- `s_operserv.c`. -/
def operserv : Table where
  formats := [
    "SELECT chname, tsinfo FROM operserv",
    "UPDATE operserv SET tsinfo = '%lu' WHERE chname = '%Q'",
    "INSERT INTO operserv (chname, tsinfo, oper) VALUES('%Q', '%lu', '%Q')",
    "SELECT COUNT(chname) FROM operserv WHERE chname='%Q'",
    "DELETE FROM operserv WHERE chname='%Q'",
    "INSERT INTO ignore_hosts (hostname, oper, reason) VALUES('%Q', '%Q', '%Q')",
    "DELETE FROM ignore_hosts WHERE hostname='%Q'" ]

/-- `s_userserv.c`. -/
def userserv : Table where
  formats := [
    "SELECT username, password, email, suspender, suspend_reason, suspend_time, reg_time, last_time, flags, language, id FROM users",
    "DELETE FROM users_resetpass WHERE username = '%Q'",
    "DELETE FROM users_resetemail WHERE username = '%Q'",
    "DELETE FROM members WHERE username = '%Q'",
    "DELETE FROM users WHERE username = '%Q'",
    "SELECT id FROM users WHERE username='%Q'",
    "INSERT INTO users (username, password, email, reg_time, last_time, flags, language) VALUES('%Q','%Q','%Q','%lu','%lu','0', '')",
    "UPDATE users SET password='%Q' WHERE username='%Q'",
    "UPDATE users SET email='%Q' WHERE username='%Q'",
    "UPDATE users SET last_time='%lu' WHERE username='%Q'",
    "DELETE FROM users_resetpass WHERE time <= '%lu'",
    "DELETE FROM users_resetemail WHERE time <= '%lu'",
    "UPDATE users SET flags='%d',suspender=NULL,suspend_reason=NULL,last_time='%lu',suspend_time='0' WHERE username='%Q'",
    "INSERT INTO users (username, password, email, reg_time, last_time, flags, language) VALUES('%Q', '%Q', '%Q', '%lu', '%lu', '%u', '')",
    "UPDATE users SET flags='%d', suspender='%Q', suspend_reason='%Q',last_time='%lu', suspend_time='%lu' WHERE username='%Q'",
    "SELECT COUNT(domain) FROM email_banned_domain WHERE LOWER(domain) = LOWER('%Q')",
    "INSERT INTO users (username, password, email, reg_time, last_time, flags, verify_token, language) VALUES('%Q', '%Q', '%Q', '%lu', '%lu', '%u', '%Q', '')",
    "SELECT verify_token FROM users WHERE username='%Q' LIMIT 1",
    "UPDATE users SET flags='%d' WHERE username='%Q'",
    "SELECT COUNT(username) FROM users_resetpass WHERE username='%Q' AND time > '%lu'",
    "DELETE FROM users_resetpass WHERE username='%Q'",
    "INSERT INTO users_resetpass (username, token, time) VALUES('%Q', '%Q', '%lu')",
    "SELECT token FROM users_resetpass WHERE username='%Q' AND time > '%lu'",
    "SELECT COUNT(username) FROM users_resetemail WHERE username='%Q' AND time > '%lu'",
    "DELETE FROM users_resetemail WHERE username='%Q'",
    "INSERT INTO users_resetemail (username, token, time) VALUES('%Q', '%Q', '%lu')",
    "SELECT token FROM users_resetemail WHERE username='%Q' AND time > '%lu' AND email is NULL",
    "INSERT INTO users_resetemail (username, token, time, email) VALUES('%Q', '%Q', '%lu', '%Q')",
    "SELECT token, email FROM users_resetemail WHERE username='%Q' AND time > '%lu' AND email is not NULL",
    "UPDATE users SET language='%Q' WHERE username='%Q'" ]

/-- `service.c`. -/
def service : Table where
  formats := [
    "SELECT hostname, oper, reason FROM ignore_hosts" ]

end Table

open Table in
/-- The formats of the calls of `rsdb_exec`, `rsdb_exec_insert`,
`rsdb_exec_fetch` and `rsdb_hook_schedule`, but for those of `dbhook.c`, which
print the name of their table with `%s`. -/
def statements : List String :=
  [notes, banserv, chanfix, chanserv, global, jupeserv, memoserv, nickserv,
    operbot, operserv, userserv, service].flatMap Table.formats

/-- Whatever the arguments are, SQLite reads the tokens of the format, and each
argument as one string or number with its own text as the value. -/
theorem read_statement {format : String} (listed : format ∈ statements)
    (call : Call) {args : List FormatArg} {texts : List CString}
    (given : Template.values (Template.ofFormat format.toList).slots args =
      some texts)
    (short : ((Template.ofFormat format.toList).sql texts).length <
      sqlBufSize) :
    ∃ sql ts, call.statement format.toList args = .ok sql ∧
      read sql = some ts ∧
      (Template.ofFormat format.toList).reading texts = some ts := by
  obtain ⟨table, _, listed⟩ := List.mem_flatMap.mp listed
  obtain ⟨whole, sound⟩ := table.checked format listed
  obtain ⟨printed, ts, same, reading⟩ :=
    Template.statement_read sound call given short
  rw [whole] at printed
  exact ⟨_, ts, printed, same, reading⟩

/-- A quote in an address stays inside of the value. -/
theorem read_statement_email : ∃ sql ts,
    Call.exec.statement
        "UPDATE users SET email='%Q' WHERE username='%Q'".toList
        [.str (some "o'neil@irc".toList), .str (some "lyra".toList)] =
      .ok sql ∧ read sql = some ts ∧
    ts[5]? = some (.string, "o'neil@irc".toList) := by
  have listed : "UPDATE users SET email='%Q' WHERE username='%Q'" ∈
      statements :=
    List.mem_flatMap.mpr
      ⟨Table.userserv, by simp, by simp [Table.userserv]⟩
  have given : Template.values (Template.ofFormat
      "UPDATE users SET email='%Q' WHERE username='%Q'".toList).slots
      [.str (some "o'neil@irc".toList), .str (some "lyra".toList)] =
      some ["o'neil@irc".toList, "lyra".toList] := by decide +kernel
  obtain ⟨sql, ts, printed, same, reading⟩ :=
    read_statement listed .exec given (by decide +kernel)
  refine ⟨sql, ts, printed, same, ?_⟩
  have fifth : ((Template.ofFormat
      "UPDATE users SET email='%Q' WHERE username='%Q'".toList).reading
      ["o'neil@irc".toList, "lyra".toList]).bind (·[5]?) =
      some (.string, "o'neil@irc".toList) := by decide +kernel
  rw [reading] at fifth
  exact fifth

end Sql

end RatboxServices
