import ImdbD.RecordStore
import ImdbD.TpccTables

/-!
# The schemas of TPC-C
-/
namespace ImdbD.Benchmark.TPCC
open StorageEngine StorageEngine.ColumnInfo

namespace TpccSchema

def getItemSchema : BuiltSchema := .ofColumns [
  ofType "i_id" .int32 true,
  ofType "i_im_id" .int32 false,
  some (sized "i_name" .varchar 32 false),
  ofType "i_price" .double false,
  some (sized "i_data" .varchar 64 false)] rfl

def getWarehouseSchema : BuiltSchema := .ofColumns [
  ofType "w_id" .int32 true,
  some (sized "w_name" .varchar 16 false),
  some (sized "w_street_1" .varchar 32 false),
  some (sized "w_street_2" .varchar 32 false),
  some (sized "w_city" .varchar 32 false),
  some (sized "w_state" .varchar 2 false),
  some (sized "w_zip" .varchar 9 false),
  ofType "w_tax" .double false,
  ofType "w_ytd" .double false] rfl

def getDistrictSchema : BuiltSchema := .ofColumns [
  ofType "d_id" .int32 true,
  ofType "d_w_id" .int32 true,
  some (sized "d_name" .varchar 16 false),
  some (sized "d_street_1" .varchar 32 false),
  some (sized "d_street_2" .varchar 32 false),
  some (sized "d_city" .varchar 32 false),
  some (sized "d_state" .varchar 2 false),
  some (sized "d_zip" .varchar 9 false),
  ofType "d_tax" .double false,
  ofType "d_ytd" .double false,
  ofType "d_next_o_id" .int32 false] rfl

def getCustomerSchema : BuiltSchema := .ofColumns [
  ofType "c_id" .int32 true,
  ofType "c_d_id" .int32 true,
  ofType "c_w_id" .int32 true,
  some (sized "c_first" .varchar 32 false),
  some (sized "c_middle" .varchar 2 false),
  some (sized "c_last" .varchar 32 false),
  some (sized "c_street_1" .varchar 32 false),
  some (sized "c_street_2" .varchar 32 false),
  some (sized "c_city" .varchar 32 false),
  some (sized "c_state" .varchar 2 false),
  some (sized "c_zip" .varchar 9 false),
  some (sized "c_phone" .varchar 32 false),
  ofType "c_since" .int64 false,
  some (sized "c_credit" .varchar 2 false),
  ofType "c_credit_lim" .double false,
  ofType "c_discount" .double false,
  ofType "c_balance" .double false,
  ofType "c_ytd_payment" .double false,
  ofType "c_payment_cnt" .int32 false,
  ofType "c_delivery_cnt" .int32 false,
  some (sized "c_data" .varchar 500 false)] rfl

def getStockSchema : BuiltSchema := .ofColumns ([
  ofType "s_i_id" .int32 true,
  ofType "s_w_id" .int32 true,
  ofType "s_quantity" .int32 false] ++
  (List.range 10).map (fun i => some (sized ("s_dists" ++ toString i) .varchar 32 false)) ++ [
  ofType "s_ytd" .int32 false,
  ofType "s_order_cnt" .int32 false,
  ofType "s_remote_cnt" .int32 false,
  some (sized "s_data" .varchar 64 false)]) rfl

def getOrderSchema : BuiltSchema := .ofColumns [
  ofType "o_id" .int32 true,
  ofType "o_c_id" .int32 false,
  ofType "o_d_id" .int32 true,
  ofType "o_w_id" .int32 true,
  ofType "o_entry_d" .int64 false,
  ofType "o_carrier_id" .int32 false,
  ofType "o_ol_cnt" .int32 false,
  ofType "o_all_local" .int32 false] rfl

def getNewOrderSchema : BuiltSchema := .ofColumns [
  ofType "o_id" .int32 true,
  ofType "d_id" .int32 true,
  ofType "w_id" .int32 true] rfl

def getOrderLineSchema : BuiltSchema := .ofColumns [
  ofType "ol_o_id" .int32 true,
  ofType "ol_d_id" .int32 true,
  ofType "ol_w_id" .int32 true,
  ofType "ol_number" .int32 true,
  some (sized "ol_i_id" .int32 4 false),
  some (sized "ol_supply_w_id" .int32 4 false),
  some (sized "ol_delivery_d" .int64 8 false),
  some (sized "ol_quantity" .int32 4 false),
  some (sized "ol_amount" .double 8 false),
  some (sized "ol_dist_info" .varchar 32 false)] rfl

def getHistorySchema : BuiltSchema := .ofColumns [
  ofType "h_c_id" .int32 false,
  ofType "h_c_d_id" .int32 false,
  ofType "h_c_w_id" .int32 false,
  ofType "h_d_id" .int32 false,
  ofType "h_w_id" .int32 false,
  ofType "h_date" .int64 false,
  ofType "h_amount" .double false,
  some (sized "h_data" .varchar 32 false)] rfl

def getDistrictNewOrderSchema : BuiltSchema := .ofColumns [
  ofType "w_id" .int32 true,
  ofType "d_id" .int32 true,
  ofType "o_id" .int32 false] rfl

end TpccSchema

/-- The tables as they are registered. -/
abbrev layout : TableId → TableLayout
  | .item => ⟨TpccSchema.getItemSchema, none⟩
  | .warehouse => ⟨TpccSchema.getWarehouseSchema, none⟩
  | .district => ⟨TpccSchema.getDistrictSchema, none⟩
  | .customer => ⟨TpccSchema.getCustomerSchema, none⟩
  | .history => ⟨TpccSchema.getHistorySchema, none⟩
  | .stock => ⟨TpccSchema.getStockSchema, none⟩
  | .districtNewOrder => ⟨TpccSchema.getDistrictNewOrderSchema, none⟩
  | .order _ => ⟨TpccSchema.getOrderSchema, none⟩
  | .newOrder _ => ⟨TpccSchema.getNewOrderSchema, none⟩
  | .orderLine _ => ⟨TpccSchema.getOrderLineSchema, some [0, 1, 2]⟩

end ImdbD.Benchmark.TPCC
