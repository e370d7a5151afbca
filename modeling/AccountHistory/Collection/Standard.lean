import AccountHistory.Collection.Catalog

/-!
# The collections of an account

What is fetched from the exchange: the records of each user, the market data that all users share,
and the view of wallets that is made from ledgers.
-/

namespace AccountHistory.Collection

/-! ## Settings of starts -/

/-- The setting of the start of public trades. -/
def publicTradesStart : String := "publicTradesConf"

/-- The setting of the start of the history of tickers. -/
def tickersHistoryStart : String := "tickersHistoryConf"

/-- The setting of the start of status messages. -/
def statusMessagesStart : String := "statusMessagesConf"

/-- The setting of the start of candles. -/
def candlesStart : String := "candlesConf"

/-! ## The list -/

/-- A collection of the table of its name. -/
def ofTable? (name method : String) (pageLimit : Nat) : Option Collection :=
  (Tables.model? name).map fun model => .new name method model pageLimit

/-- A collection in a table, with times and symbols. -/
def history? (name method : String) (pageLimit : Nat) (dateField symbolField : String) :
    Option Collection :=
  (ofTable? name method pageLimit).map fun c => (c.dated dateField).bySymbol symbolField

/-- The view of the wallets of users. -/
def wallets? : Option Collection :=
  (Tables.model? "ledgers").map fun model =>
    (((Collection.new "wallets" "getWallets" model 0).dated "mts").bySymbol "currency").asViewOf
      "ledgers"

/-- All collections, in order. -/
def standardList : List (Option Collection) :=
  [history? "ledgers" "getLedgers" 2500 "mts" "currency",
   history? "trades" "getTrades" 2500 "mtsCreate" "symbol",
   history? "fundingTrades" "getFundingTrades" 1000 "mtsCreate" "symbol",
   history? "orders" "getOrders" 2500 "mtsUpdate" "symbol",
   history? "movements" "getMovements" 25 "mtsUpdated" "currency",
   history? "fundingOfferHistory" "getFundingOfferHistory" 500 "mtsUpdate" "symbol",
   history? "fundingLoanHistory" "getFundingLoanHistory" 500 "mtsUpdate" "symbol",
   history? "fundingCreditHistory" "getFundingCreditHistory" 500 "mtsUpdate" "symbol",
   (history? "positionsHistory" "getPositionsHistory" 500 "mtsUpdate" "symbol").map updatable,
   (ofTable? "logins" "getLogins" 250).map fun c => (c.dated "time").asText "extraData",
   (ofTable? "changeLogs" "getChangeLogs" 500).map fun c => c.dated "mtsCreate",
   (history? "publicTrades" "getPublicTrades" 5000 "mts" "_symbol").map fun c =>
     (c.startingAt publicTradesStart).forAll,
   (history? "tickersHistory" "getTickersHistory" 250 "mtsUpdate" "symbol").map fun c =>
     (c.startingAt tickersHistoryStart).forAll,
   (history? "statusMessages" "getStatusMessages" 5000 "timestamp" "key").map fun c =>
     (c.startingAt statusMessagesStart).updatable.forAll,
   (history? "candles" "getCandles" 10000 "mts" "_symbol").map fun c =>
     ((c.byTimeframe "_timeframe").startingAt candlesStart).forAll,
   (ofTable? "currencies" "getCurrencies" 1000).map fun c =>
     (c.sortedBy [("id", .ascending)]).updatable.required.forAll,
   wallets?]

end AccountHistory.Collection

namespace AccountHistory.Catalog

/-- The catalog of all collections. -/
def standard : Catalog :=
  ⟨Collection.standardList.filterMap id⟩

end AccountHistory.Catalog
