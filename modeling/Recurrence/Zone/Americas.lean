import Recurrence.Zone

namespace Recurrence.Zone

/-! Zones of North and South America.

The changes of a history are listed from the latest to the earliest, in Unix seconds.  The phase of
the first one holds for all later times.
-/

namespace NewYork

def localMean : Phase := ⟨-17760, 0⟩

def standard : Phase := ⟨-18000, 0⟩

def summer : Phase := ⟨-14400, 3600⟩

def history : History where
  name := "America/New_York"
  initial := localMean
  shifts := [
    ⟨2140668000, standard⟩, ⟨2120108400, summer⟩, ⟨2109218400, standard⟩, ⟨2088658800, summer⟩,
    ⟨2077768800, standard⟩, ⟨2057209200, summer⟩, ⟨2046319200, standard⟩, ⟨2025759600, summer⟩,
    ⟨2014869600, standard⟩, ⟨1994310000, summer⟩, ⟨1983420000, standard⟩, ⟨1962860400, summer⟩,
    ⟨1951365600, standard⟩, ⟨1930806000, summer⟩, ⟨1919916000, standard⟩, ⟨1899356400, summer⟩,
    ⟨1888466400, standard⟩, ⟨1867906800, summer⟩, ⟨1857016800, standard⟩, ⟨1836457200, summer⟩,
    ⟨1825567200, standard⟩, ⟨1805007600, summer⟩, ⟨1793512800, standard⟩, ⟨1772953200, summer⟩,
    ⟨1762063200, standard⟩, ⟨1741503600, summer⟩, ⟨1730613600, standard⟩, ⟨1710054000, summer⟩,
    ⟨1699164000, standard⟩, ⟨1678604400, summer⟩, ⟨1667714400, standard⟩, ⟨1647154800, summer⟩,
    ⟨1636264800, standard⟩, ⟨1615705200, summer⟩, ⟨1604210400, standard⟩, ⟨1583650800, summer⟩,
    ⟨1572760800, standard⟩, ⟨1552201200, summer⟩, ⟨1541311200, standard⟩, ⟨1520751600, summer⟩,
    ⟨1509861600, standard⟩, ⟨1489302000, summer⟩, ⟨1478412000, standard⟩, ⟨1457852400, summer⟩,
    ⟨1446357600, standard⟩, ⟨1425798000, summer⟩, ⟨1414908000, standard⟩, ⟨1394348400, summer⟩,
    ⟨1383458400, standard⟩, ⟨1362898800, summer⟩, ⟨1352008800, standard⟩, ⟨1331449200, summer⟩,
    ⟨1320559200, standard⟩, ⟨1299999600, summer⟩, ⟨1289109600, standard⟩, ⟨1268550000, summer⟩,
    ⟨1257055200, standard⟩, ⟨1236495600, summer⟩, ⟨1225605600, standard⟩, ⟨1205046000, summer⟩,
    ⟨1194156000, standard⟩, ⟨1173596400, summer⟩, ⟨1162101600, standard⟩, ⟨1143961200, summer⟩,
    ⟨1130652000, standard⟩, ⟨1112511600, summer⟩, ⟨1099202400, standard⟩, ⟨1081062000, summer⟩,
    ⟨1067148000, standard⟩, ⟨1049612400, summer⟩, ⟨1035698400, standard⟩, ⟨1018162800, summer⟩,
    ⟨1004248800, standard⟩, ⟨986108400, summer⟩, ⟨972799200, standard⟩, ⟨954658800, summer⟩,
    ⟨941349600, standard⟩, ⟨923209200, summer⟩, ⟨909295200, standard⟩, ⟨891759600, summer⟩,
    ⟨877845600, standard⟩, ⟨860310000, summer⟩, ⟨846396000, standard⟩, ⟨828860400, summer⟩,
    ⟨814946400, standard⟩, ⟨796806000, summer⟩, ⟨783496800, standard⟩, ⟨765356400, summer⟩,
    ⟨752047200, standard⟩, ⟨733906800, summer⟩, ⟨719992800, standard⟩, ⟨702457200, summer⟩,
    ⟨688543200, standard⟩, ⟨671007600, summer⟩, ⟨657093600, standard⟩, ⟨638953200, summer⟩,
    ⟨625644000, standard⟩, ⟨607503600, summer⟩, ⟨594194400, standard⟩, ⟨576054000, summer⟩,
    ⟨562140000, standard⟩, ⟨544604400, summer⟩, ⟨530690400, standard⟩, ⟨514969200, summer⟩,
    ⟨499240800, standard⟩, ⟨483519600, summer⟩, ⟨467791200, standard⟩, ⟨452070000, summer⟩,
    ⟨436341600, standard⟩, ⟨420015600, summer⟩, ⟨404892000, standard⟩, ⟨388566000, summer⟩,
    ⟨372837600, standard⟩, ⟨357116400, summer⟩, ⟨341388000, standard⟩, ⟨325666800, summer⟩,
    ⟨309938400, standard⟩, ⟨294217200, summer⟩, ⟨278488800, standard⟩, ⟨262767600, summer⟩,
    ⟨247039200, standard⟩, ⟨230713200, summer⟩, ⟨215589600, standard⟩, ⟨199263600, summer⟩,
    ⟨183535200, standard⟩, ⟨162370800, summer⟩, ⟨152085600, standard⟩, ⟨126687600, summer⟩,
    ⟨120636000, standard⟩, ⟨104914800, summer⟩, ⟨89186400, standard⟩, ⟨73465200, summer⟩,
    ⟨57736800, standard⟩, ⟨41410800, summer⟩, ⟨25682400, standard⟩, ⟨9961200, summer⟩,
    ⟨-5767200, standard⟩, ⟨-21488400, summer⟩, ⟨-37216800, standard⟩, ⟨-52938000, summer⟩,
    ⟨-68666400, standard⟩, ⟨-84387600, summer⟩, ⟨-100116000, standard⟩, ⟨-116442000, summer⟩,
    ⟨-131565600, standard⟩, ⟨-147891600, summer⟩, ⟨-163620000, standard⟩, ⟨-179341200, summer⟩,
    ⟨-195069600, standard⟩, ⟨-210790800, summer⟩, ⟨-226519200, standard⟩, ⟨-242240400, summer⟩,
    ⟨-257968800, standard⟩, ⟨-273690000, summer⟩, ⟨-289418400, standard⟩, ⟨-305744400, summer⟩,
    ⟨-321472800, standard⟩, ⟨-337194000, summer⟩, ⟨-352922400, standard⟩, ⟨-368643600, summer⟩,
    ⟨-384372000, standard⟩, ⟨-400093200, summer⟩, ⟨-415821600, standard⟩, ⟨-431542800, summer⟩,
    ⟨-447271200, standard⟩, ⟨-463597200, summer⟩, ⟨-481744800, standard⟩, ⟨-495046800, summer⟩,
    ⟨-513194400, standard⟩, ⟨-526496400, summer⟩, ⟨-544644000, standard⟩, ⟨-557946000, summer⟩,
    ⟨-576093600, standard⟩, ⟨-589395600, summer⟩, ⟨-608148000, standard⟩, ⟨-620845200, summer⟩,
    ⟨-639597600, standard⟩, ⟨-652899600, summer⟩, ⟨-671047200, standard⟩, ⟨-684349200, summer⟩,
    ⟨-702496800, standard⟩, ⟨-715798800, summer⟩, ⟨-733946400, standard⟩, ⟨-747248400, summer⟩,
    ⟨-765396000, standard⟩, ⟨-769395600, summer⟩, ⟨-880218000, summer⟩, ⟨-891799200, standard⟩,
    ⟨-905101200, summer⟩, ⟨-923248800, standard⟩, ⟨-936550800, summer⟩, ⟨-955303200, standard⟩,
    ⟨-968000400, summer⟩, ⟨-986752800, standard⟩, ⟨-1000054800, summer⟩, ⟨-1018202400, standard⟩,
    ⟨-1031504400, summer⟩, ⟨-1049652000, standard⟩, ⟨-1062954000, summer⟩, ⟨-1081101600, standard⟩,
    ⟨-1094403600, summer⟩, ⟨-1112551200, standard⟩, ⟨-1125853200, summer⟩, ⟨-1144605600, standard⟩,
    ⟨-1157302800, summer⟩, ⟨-1176055200, standard⟩, ⟨-1189357200, summer⟩, ⟨-1207504800, standard⟩,
    ⟨-1220806800, summer⟩, ⟨-1238954400, standard⟩, ⟨-1252256400, summer⟩, ⟨-1270404000, standard⟩,
    ⟨-1283706000, summer⟩, ⟨-1301853600, standard⟩, ⟨-1315155600, summer⟩, ⟨-1333908000, standard⟩,
    ⟨-1347210000, summer⟩, ⟨-1365357600, standard⟩, ⟨-1378659600, summer⟩, ⟨-1396807200, standard⟩,
    ⟨-1410109200, summer⟩, ⟨-1428256800, standard⟩, ⟨-1441558800, summer⟩, ⟨-1459706400, standard⟩,
    ⟨-1473008400, summer⟩, ⟨-1491760800, standard⟩, ⟨-1504458000, summer⟩, ⟨-1523210400, standard⟩,
    ⟨-1536512400, summer⟩, ⟨-1551636000, standard⟩, ⟨-1570381200, summer⟩, ⟨-1583690400, standard⟩,
    ⟨-1601830800, summer⟩, ⟨-1615140000, standard⟩, ⟨-1633280400, summer⟩, ⟨-2147483648, standard⟩]

end NewYork

namespace SaoPaulo

def localMean : Phase := ⟨-11160, 0⟩

def standard : Phase := ⟨-10800, 0⟩

def summer : Phase := ⟨-7200, 3600⟩

def history : History where
  name := "America/Sao_Paulo"
  initial := localMean
  shifts := [
    ⟨1550368800, standard⟩, ⟨1541300400, summer⟩, ⟨1518919200, standard⟩, ⟨1508036400, summer⟩,
    ⟨1487469600, standard⟩, ⟨1476586800, summer⟩, ⟨1456020000, standard⟩, ⟨1445137200, summer⟩,
    ⟨1424570400, standard⟩, ⟨1413687600, summer⟩, ⟨1392516000, standard⟩, ⟨1382238000, summer⟩,
    ⟨1361066400, standard⟩, ⟨1350788400, summer⟩, ⟨1330221600, standard⟩, ⟨1318734000, summer⟩,
    ⟨1298167200, standard⟩, ⟨1287284400, summer⟩, ⟨1266717600, standard⟩, ⟨1255834800, summer⟩,
    ⟨1234663200, standard⟩, ⟨1224385200, summer⟩, ⟨1203213600, standard⟩, ⟨1192330800, summer⟩,
    ⟨1172368800, standard⟩, ⟨1162695600, summer⟩, ⟨1140314400, standard⟩, ⟨1129431600, summer⟩,
    ⟨1108864800, standard⟩, ⟨1099364400, summer⟩, ⟨1076810400, standard⟩, ⟨1066532400, summer⟩,
    ⟨1045360800, standard⟩, ⟨1036292400, summer⟩, ⟨1013911200, standard⟩, ⟨1003028400, summer⟩,
    ⟨982461600, standard⟩, ⟨970974000, summer⟩, ⟨951616800, standard⟩, ⟨938919600, summer⟩,
    ⟨919562400, standard⟩, ⟨908074800, summer⟩, ⟨888717600, standard⟩, ⟨876106800, summer⟩,
    ⟨856058400, standard⟩, ⟨844570800, summer⟩, ⟨824004000, standard⟩, ⟨813726000, summer⟩,
    ⟨793159200, standard⟩, ⟨782276400, summer⟩, ⟨761709600, standard⟩, ⟨750826800, summer⟩,
    ⟨728445600, standard⟩, ⟨719982000, summer⟩, ⟨697600800, standard⟩, ⟨687927600, summer⟩,
    ⟨666756000, standard⟩, ⟨656478000, summer⟩, ⟨634701600, standard⟩, ⟨624423600, summer⟩,
    ⟨602042400, standard⟩, ⟨592974000, summer⟩, ⟨571197600, standard⟩, ⟨562129200, summer⟩,
    ⟨540266400, standard⟩, ⟨530593200, summer⟩, ⟨511236000, standard⟩, ⟨499748400, summer⟩,
    ⟨-57967200, standard⟩, ⟨-68418000, summer⟩, ⟨-89589600, standard⟩, ⟨-99954000, summer⟩,
    ⟨-121122000, standard⟩, ⟨-128898000, summer⟩, ⟨-149983200, standard⟩, ⟨-155163600, summer⟩,
    ⟨-184197600, standard⟩, ⟨-195426000, summer⟩, ⟨-531352800, standard⟩, ⟨-539125200, summer⟩,
    ⟨-560210400, standard⟩, ⟨-570747600, summer⟩, ⟨-591832800, standard⟩, ⟨-602283600, summer⟩,
    ⟨-622069200, standard⟩, ⟨-633819600, summer⟩, ⟨-1159826400, standard⟩, ⟨-1175374800, summer⟩,
    ⟨-1191362400, standard⟩, ⟨-1206957600, summer⟩, ⟨-1767214412, standard⟩]

end SaoPaulo

end Recurrence.Zone
