import AccountHistory.Schema.Model

/-!
# The tables of an account

The tables in which the history of an account is kept, in the order of their making: a table comes
after the tables it refers to. A private table belongs to users: it names the owner and perhaps a
sub-account in every row, goes with them, and is indexed by owner and date. A public table belongs
to nobody.
-/

namespace AccountHistory.Tables

/-! ## Common parts -/

/-- The version of the schema that these tables make up. -/
def currentVersion : Nat := 4

/-- The column of the owner, in every private table. -/
def userColumn : String := "user_id"

/-- The column of the sub-account, in every private table. -/
def subUserColumn : String := "subUserId"

/-- The placeholder of the table in a template. -/
def tableMark : String := "#\x7btableName\x7d"

/-- The reference of a column to the users, which a row does not outlive. -/
def reference (column : String) : String :=
  "CONSTRAINT " ++ tableMark ++ "_fk_" ++ column ++ " FOREIGN KEY (" ++ column
    ++ ") REFERENCES users(_id) ON UPDATE CASCADE ON DELETE CASCADE"

/-- The trigger that notes the time of an update that does not say it. -/
def touchTrigger : String :=
  "CREATE TRIGGER IF NOT EXISTS " ++ tableMark ++ "_updatedAt AFTER UPDATE ON " ++ tableMark
    ++ " FOR EACH ROW WHEN NEW.updatedAt IS OLD.updatedAt BEGIN UPDATE " ++ tableMark
    ++ " SET updatedAt = CAST((julianday('now') - 2440587.5) * 86400000 AS INTEGER)"
    ++ " WHERE _id = NEW._id; END"

/-- The condition of an index on the rows of sub-accounts. -/
def subUserCondition : String := "WHERE subUserId IS NOT NULL"

/-- The promise that a span of time does not end before it starts. -/
def envelope (name start finish : String) : String :=
  "CONSTRAINT " ++ tableMark ++ "_" ++ name ++ "_envelope CHECK (" ++ start ++ " IS NULL OR "
    ++ finish ++ " IS NULL OR " ++ start ++ " <= " ++ finish ++ ")"

/-- A private table: the columns, references and indexes of its owners come last. -/
def owned (dateField : String) (d : Draft) : Draft where
  columns := d.columns ++ [⟨subUserColumn, .integer⟩, ⟨userColumn, .integerNotNull⟩]
  constraints := d.constraints ++ [reference userColumn, reference subUserColumn]
  triggers := d.triggers
  indexes := d.indexes ++
    [[userColumn, dateField], [userColumn, subUserColumn, dateField, subUserCondition]]
  uniqueIndexes := d.uniqueIndexes

/-! ## Users and checkpoints -/

/-- The users of the store, sub-accounts among them. -/
def users : Draft where
  columns :=
    [⟨"id", .bigint⟩, ⟨"email", .varcharNotNull⟩, ⟨"username", .varcharNotNull⟩,
     ⟨"timezone", .varchar⟩, ⟨"isSubAccount", .integerNotNull⟩, ⟨"isNotProtected", .integer⟩]
  constraints := []
  triggers := [touchTrigger]
  indexes := []
  uniqueIndexes := [["email", "username"]]

/-- Which sub-account belongs to which user. -/
def subAccounts : Draft where
  columns := [⟨"masterUserId", .integerNotNull⟩, ⟨subUserColumn, .integerNotNull⟩]
  constraints := [reference "masterUserId", reference subUserColumn]
  triggers := []
  indexes := []
  uniqueIndexes := [["masterUserId", subUserColumn]]

/-- The spans of time already fetched, by owner, collection, symbol and timeframe. The three unique
indexes keep one row for each of them: for the collections of nobody, of a user, and of a
sub-account. -/
def syncRangeCheckpoints : Draft where
  columns :=
    [⟨userColumn, .integer⟩, ⟨subUserColumn, .integer⟩, ⟨"collName", .varcharNotNull⟩,
     ⟨"symbol", .varcharNotNull⟩, ⟨"timeframe", .varcharNotNull⟩, ⟨"baseStartFrom", .bigint⟩,
     ⟨"baseStartTo", .bigint⟩, ⟨"currStart", .bigint⟩, ⟨"currEnd", .bigint⟩]
  constraints :=
    [reference userColumn, reference subUserColumn,
     envelope "base" "baseStartFrom" "baseStartTo", envelope "curr" "currStart" "currEnd"]
  triggers := [touchTrigger]
  indexes := []
  uniqueIndexes :=
    [["collName", "symbol", "timeframe", "WHERE user_id IS NULL"],
     [userColumn, "collName", "symbol", "timeframe",
      "WHERE user_id IS NOT NULL AND subUserId IS NULL"],
     [userColumn, subUserColumn, "collName", "symbol", "timeframe", subUserCondition]]

/-! ## Private tables -/

/-- Balance entries. -/
def ledgers : Draft where
  columns :=
    [⟨"id", .bigint⟩, ⟨"currency", .varchar⟩, ⟨"mts", .bigint⟩, ⟨"amount", .decimal⟩,
     ⟨"amountUsd", .decimal⟩, ⟨"balance", .decimal⟩, ⟨"balanceUsd", .decimal⟩,
     ⟨"description", .text⟩, ⟨"wallet", .varchar⟩]
  constraints := []
  triggers := []
  indexes := [[userColumn, "wallet", "currency", "mts"], [userColumn, "currency", "mts"]]
  uniqueIndexes := [["id", userColumn]]

/-- Trades of the account. -/
def trades : Draft where
  columns :=
    [⟨"id", .bigint⟩, ⟨"symbol", .varchar⟩, ⟨"mtsCreate", .bigint⟩, ⟨"orderID", .bigint⟩,
     ⟨"execAmount", .decimal⟩, ⟨"execPrice", .decimal⟩, ⟨"orderType", .varchar⟩,
     ⟨"orderPrice", .decimal⟩, ⟨"maker", .integer⟩, ⟨"fee", .decimal⟩, ⟨"feeCurrency", .varchar⟩]
  constraints := []
  triggers := []
  indexes := [[userColumn, "symbol", "mtsCreate"], [userColumn, "orderID"]]
  uniqueIndexes := [["id", "symbol", userColumn]]

/-- Funding trades of the account. -/
def fundingTrades : Draft where
  columns :=
    [⟨"id", .bigint⟩, ⟨"symbol", .varchar⟩, ⟨"mtsCreate", .bigint⟩, ⟨"offerID", .bigint⟩,
     ⟨"amount", .decimal⟩, ⟨"rate", .decimal⟩, ⟨"period", .bigint⟩, ⟨"maker", .integer⟩]
  constraints := []
  triggers := []
  indexes := [[userColumn, "symbol", "mtsCreate"]]
  uniqueIndexes := [["id", userColumn]]

/-- Orders. -/
def orders : Draft where
  columns :=
    [⟨"id", .bigint⟩, ⟨"gid", .bigint⟩, ⟨"cid", .bigint⟩, ⟨"symbol", .varchar⟩,
     ⟨"mtsCreate", .bigint⟩, ⟨"mtsUpdate", .bigint⟩, ⟨"amount", .decimal⟩,
     ⟨"amountOrig", .decimal⟩, ⟨"amountExecuted", .decimal⟩, ⟨"type", .varchar⟩,
     ⟨"typePrev", .varchar⟩, ⟨"flags", .integer⟩, ⟨"status", .text⟩, ⟨"price", .decimal⟩,
     ⟨"priceAvg", .decimal⟩, ⟨"priceTrailing", .decimal⟩, ⟨"priceAuxLimit", .decimal⟩,
     ⟨"notify", .integer⟩, ⟨"placedId", .bigint⟩]
  constraints := []
  triggers := []
  indexes := [[userColumn, "symbol", "mtsUpdate"], [userColumn, "type", "mtsUpdate"]]
  uniqueIndexes := [["id", userColumn]]

/-- Deposits and withdrawals. -/
def movements : Draft where
  columns :=
    [⟨"id", .bigint⟩, ⟨"currency", .varchar⟩, ⟨"currencyName", .varchar⟩, ⟨"mtsStarted", .bigint⟩,
     ⟨"mtsUpdated", .bigint⟩, ⟨"status", .varchar⟩, ⟨"amount", .decimal⟩, ⟨"fees", .decimal⟩,
     ⟨"destinationAddress", .varchar⟩, ⟨"transactionId", .varchar⟩, ⟨"note", .text⟩]
  constraints := []
  triggers := []
  indexes := [[userColumn, "currency", "mtsUpdated"]]
  uniqueIndexes := [["id", userColumn]]

/-- Past funding offers. -/
def fundingOfferHistory : Draft where
  columns :=
    [⟨"id", .bigint⟩, ⟨"symbol", .varchar⟩, ⟨"mtsCreate", .bigint⟩, ⟨"mtsUpdate", .bigint⟩,
     ⟨"amount", .decimal⟩, ⟨"amountOrig", .decimal⟩, ⟨"type", .varchar⟩, ⟨"flags", .text⟩,
     ⟨"status", .text⟩, ⟨"rate", .decimal⟩, ⟨"period", .integer⟩, ⟨"notify", .integer⟩,
     ⟨"hidden", .integer⟩, ⟨"renew", .integer⟩, ⟨"rateReal", .decimal⟩]
  constraints := []
  triggers := []
  indexes := [[userColumn, "symbol", "mtsUpdate"]]
  uniqueIndexes := [["id", userColumn]]

/-- What past loans and credits have in common. -/
def fundingDeal : Draft where
  columns :=
    [⟨"id", .bigint⟩, ⟨"symbol", .varchar⟩, ⟨"side", .integer⟩, ⟨"mtsCreate", .bigint⟩,
     ⟨"mtsUpdate", .bigint⟩, ⟨"amount", .decimal⟩, ⟨"flags", .text⟩, ⟨"status", .text⟩,
     ⟨"rate", .decimal⟩, ⟨"period", .integer⟩, ⟨"mtsOpening", .bigint⟩,
     ⟨"mtsLastPayout", .bigint⟩, ⟨"notify", .integer⟩, ⟨"hidden", .integer⟩, ⟨"renew", .integer⟩,
     ⟨"rateReal", .decimal⟩, ⟨"noClose", .integer⟩]
  constraints := []
  triggers := []
  indexes := [[userColumn, "symbol", "mtsUpdate"]]
  uniqueIndexes := [["id", userColumn]]

/-- Past positions. -/
def positionsHistory : Draft where
  columns :=
    [⟨"id", .bigint⟩, ⟨"symbol", .varchar⟩, ⟨"status", .varchar⟩, ⟨"amount", .decimal⟩,
     ⟨"basePrice", .decimal⟩, ⟨"closePrice", .decimal⟩, ⟨"marginFunding", .decimal⟩,
     ⟨"marginFundingType", .integer⟩, ⟨"pl", .decimal⟩, ⟨"plPerc", .decimal⟩,
     ⟨"liquidationPrice", .decimal⟩, ⟨"leverage", .decimal⟩, ⟨"mtsCreate", .bigint⟩,
     ⟨"mtsUpdate", .bigint⟩]
  constraints := []
  triggers := []
  indexes := [[userColumn, "symbol", "mtsUpdate"]]
  uniqueIndexes := [["id", userColumn]]

/-- Logins. -/
def logins : Draft where
  columns := [⟨"id", .bigint⟩, ⟨"time", .bigint⟩, ⟨"ip", .varchar⟩, ⟨"extraData", .text⟩]
  constraints := []
  triggers := []
  indexes := []
  uniqueIndexes := [["id", userColumn]]

/-- Changes of the settings of the account. -/
def changeLogs : Draft where
  columns := [⟨"mtsCreate", .bigint⟩, ⟨"log", .varchar⟩, ⟨"ip", .varchar⟩, ⟨"userAgent", .text⟩]
  constraints := []
  triggers := []
  indexes := []
  uniqueIndexes := [["mtsCreate", "log", userColumn]]

/-! ## Public tables -/

/-- Trades of the market. -/
def publicTrades : Draft where
  columns :=
    [⟨"id", .bigint⟩, ⟨"mts", .bigint⟩, ⟨"rate", .decimal⟩, ⟨"period", .bigint⟩,
     ⟨"amount", .decimal⟩, ⟨"price", .decimal⟩, ⟨"_symbol", .varchar⟩]
  constraints := []
  triggers := []
  indexes := [["_symbol", "mts"]]
  uniqueIndexes := [["id", "_symbol"]]

/-- Past tickers. -/
def tickersHistory : Draft where
  columns :=
    [⟨"symbol", .varchar⟩, ⟨"bid", .decimal⟩, ⟨"bidPeriod", .integer⟩, ⟨"ask", .decimal⟩,
     ⟨"mtsUpdate", .bigint⟩]
  constraints := []
  triggers := []
  indexes := []
  uniqueIndexes := [["symbol", "mtsUpdate"]]

/-- Status messages of derivatives. -/
def statusMessages : Draft where
  columns :=
    [⟨"key", .varchar⟩, ⟨"timestamp", .bigint⟩, ⟨"price", .decimal⟩, ⟨"priceSpot", .decimal⟩,
     ⟨"fundBal", .decimal⟩, ⟨"fundingAccrued", .decimal⟩, ⟨"fundingStep", .decimal⟩,
     ⟨"nextFundingEvtTimestampMs", .bigint⟩, ⟨"nextFundingAccrued", .decimal⟩,
     ⟨"nextFundingStep", .decimal⟩, ⟨"currentFunding", .decimal⟩, ⟨"markPrice", .decimal⟩,
     ⟨"openInterest", .decimal⟩, ⟨"clampMin", .decimal⟩, ⟨"clampMax", .decimal⟩,
     ⟨"_type", .varchar⟩]
  constraints := []
  triggers := []
  indexes := [["_type", "timestamp"]]
  uniqueIndexes := [["key", "_type"]]

/-- Candles. -/
def candles : Draft where
  columns :=
    [⟨"mts", .bigint⟩, ⟨"open", .decimal⟩, ⟨"close", .decimal⟩, ⟨"high", .decimal⟩,
     ⟨"low", .decimal⟩, ⟨"volume", .decimal⟩, ⟨"_symbol", .varchar⟩, ⟨"_timeframe", .varchar⟩]
  constraints := []
  triggers := []
  indexes := [["_timeframe", "mts"]]
  uniqueIndexes := [["_symbol", "_timeframe", "mts"]]

/-- Currencies. -/
def currencies : Draft where
  columns :=
    [⟨"id", .varcharNotNull⟩, ⟨"name", .varchar⟩, ⟨"pool", .varchar⟩, ⟨"explorer", .text⟩,
     ⟨"symbol", .varchar⟩, ⟨"walletFx", .text⟩]
  constraints := []
  triggers := []
  indexes := []
  uniqueIndexes := [["id"]]

/-! ## All of them -/

/-- Which columns a table gets on top of its own. -/
structure Entry where
  /-- the name of the table -/
  name : String
  /-- its model as it is written -/
  draft : Draft
  /-- what is added -/
  options : ModelExtras

/-- Every table, in the order of their making. -/
def entries : List Entry :=
  [⟨"users", users, ⟨true, true⟩⟩,
   ⟨"subAccounts", subAccounts, .standard⟩,
   ⟨"syncRangeCheckpoints", syncRangeCheckpoints, ⟨true, true⟩⟩,
   ⟨"ledgers", owned "mts" ledgers, .standard⟩,
   ⟨"trades", owned "mtsCreate" trades, .standard⟩,
   ⟨"fundingTrades", owned "mtsCreate" fundingTrades, .standard⟩,
   ⟨"orders", owned "mtsUpdate" orders, .standard⟩,
   ⟨"movements", owned "mtsUpdated" movements, .standard⟩,
   ⟨"fundingOfferHistory", owned "mtsUpdate" fundingOfferHistory, .standard⟩,
   ⟨"fundingLoanHistory", owned "mtsUpdate" fundingDeal, .standard⟩,
   ⟨"fundingCreditHistory",
     owned "mtsUpdate" (fundingDeal.column "positionPair" .varchar), .standard⟩,
   ⟨"positionsHistory", owned "mtsUpdate" positionsHistory, .standard⟩,
   ⟨"logins", owned "time" logins, .standard⟩,
   ⟨"changeLogs", owned "mtsCreate" changeLogs, .standard⟩,
   ⟨"publicTrades", publicTrades, .standard⟩,
   ⟨"tickersHistory", tickersHistory, .standard⟩,
   ⟨"statusMessages", statusMessages, .standard⟩,
   ⟨"candles", candles, .standard⟩,
   ⟨"currencies", currencies, .standard⟩]

/-- The model of a table. -/
def Entry.model (e : Entry) : Except ModelError Model :=
  e.draft.toModel e.options

/-- Every table with its model, in the order of their making. -/
def models : List (String × Model) :=
  entries.filterMap fun e => e.model.toOption.map fun m => (e.name, m)

/-- The model of the table of a name. -/
def model? (name : String) : Option Model :=
  (models.find? fun t => t.1 == name).map Prod.snd

end AccountHistory.Tables
